/-
The budget for packets sent twice.

It holds up to sixteen tokens and gains one for every refill interval that has passed.
The interval is the second divided by the rate, cut to whole milliseconds: twelve of
them, where the documented rate of eighty in a second asks for twelve and a half.

Times are in nanoseconds.

* `tokensWithin_le` — the rate that the budget does keep: the burst, and one for each
  interval that can end in the window;
* `rateKept_iff` — the windows in which the documented rate is kept.
-/
import Mathlib.Data.Nat.Notation
import Mathlib.Data.List.Basic

namespace Csqtt.FecBudget

/-- `DUPLICATES_PER_SECOND`. -/
def duplicatesPerSecond : ℕ := 80

/-- `DUPLICATE_BURST`. -/
def duplicateBurst : ℕ := 16

/-- `REFILL_INTERVAL`: a whole number of milliseconds. -/
def refillInterval : ℕ := 1000 / duplicatesPerSecond * 1000000

/-- `u32::MAX`. -/
def maxRefill : ℕ := 4294967295

/-- The longest time that the counter of `refill` holds. -/
def counterSpan : ℕ := maxRefill * refillInterval

def nanosPerSecond : ℕ := 1000000000

structure Budget where
  tokens : ℕ
  updated : ℕ
  deriving DecidableEq, Repr

namespace Budget

/-- `Budget::new`, at a moment. -/
def new (now : ℕ) : Budget := { tokens := duplicateBurst, updated := now }

/-- The tokens that the time since `updated` is worth.  What is over an interval is kept
for the next call, and so is what does not fit the counter. -/
def refill (b : Budget) (now : ℕ) : Budget :=
  let refill := (now - b.updated) / refillInterval
  if refill ≠ 0 then
    let refill := min refill maxRefill
    { tokens := min (min (b.tokens + refill) maxRefill) duplicateBurst
      updated := b.updated + refillInterval * refill }
  else b

def allow (b : Budget) (now : ℕ) : Bool × Budget :=
  let b := b.refill now
  if b.tokens = 0 then (false, b) else (true, { b with tokens := b.tokens - 1 })

/-- The budget after calls at the given times. -/
def after (b : Budget) (times : List ℕ) : Budget :=
  times.foldl (fun b now => (b.allow now).2) b

/-- The times at which a call is allowed. -/
def allowed (b : Budget) : List ℕ → List ℕ
  | [] => []
  | now :: times =>
    if (b.allow now).1 then now :: (b.allow now).2.allowed times
    else (b.allow now).2.allowed times

end Budget

/-- Calls at non-decreasing times, none more than `gap` after the one before. -/
def Calls (gap : ℕ) : ℕ → List ℕ → Prop
  | _, [] => True
  | last, now :: times => last ≤ now ∧ now ≤ last + gap ∧ Calls gap now times

/-- How many of the times are in the window of this length. -/
def within (start length : ℕ) (times : List ℕ) : ℕ :=
  times.countP fun now => start ≤ now ∧ now ≤ start + length

/-- The documented rate, in every window of a length: `burst + rate * length + 1`. -/
def RateKept (gap length : ℕ) : Prop :=
  ∀ created times start, Calls gap created times →
    within start length ((Budget.new created).allowed times) * nanosPerSecond ≤
      (duplicateBurst + 1) * nanosPerSecond + duplicatesPerSecond * length

/-! ### One call -/

variable {b : Budget} {gap last now start length : ℕ} {times : List ℕ}

@[simp] theorem refillInterval_eq : refillInterval = 12000000 := rfl

@[simp] theorem duplicateBurst_eq : duplicateBurst = 16 := rfl

@[simp] theorem maxRefill_eq : maxRefill = 4294967295 := rfl

@[simp] theorem counterSpan_eq : counterSpan = 51539607540000000 := rfl

/-- What a call finds: no more than the burst, and less than an interval not yet counted. -/
structure Settled (b : Budget) (last : ℕ) : Prop where
  tokens_le : b.tokens ≤ duplicateBurst
  updated_le : b.updated ≤ last
  lag_lt : last < b.updated + refillInterval

theorem settled_new (created : ℕ) : Settled (Budget.new created) created where
  tokens_le := Nat.le_refl _
  updated_le := Nat.le_refl _
  lag_lt := Nat.lt_add_of_pos_right (Nat.succ_pos _)

/-- While calls come in time, `refill` counts every whole interval. -/
theorem Settled.refill_eq (h : Settled b last) (hlast : last ≤ now)
    (hgap : now ≤ last + counterSpan) :
    b.refill now =
      { tokens := min (b.tokens + (now - b.updated) / refillInterval) duplicateBurst
        updated := b.updated + refillInterval * ((now - b.updated) / refillInterval) } := by
  have hupdated := h.updated_le
  have hlag := h.lag_lt
  simp only [refillInterval_eq, counterSpan_eq] at hlag hgap
  have hcount : (now - b.updated) / refillInterval ≤ maxRefill := by
    rw [refillInterval_eq, maxRefill_eq]
    omega
  rw [Budget.refill]
  by_cases hzero : (now - b.updated) / refillInterval = 0
  · rw [if_neg (not_not_intro hzero), hzero, Nat.add_zero, Nat.mul_zero, Nat.add_zero,
      Nat.min_eq_left h.tokens_le]
  · generalize (now - b.updated) / refillInterval = count at hcount hzero ⊢
    have hburst : min (min (b.tokens + count) maxRefill) duplicateBurst =
        min (b.tokens + count) duplicateBurst := by
      -- the counter is far wider than the burst
      rw [maxRefill_eq, duplicateBurst_eq]
      omega
    simp only [if_pos hzero, Nat.min_eq_left hcount, hburst]

theorem Settled.refill (h : Settled b last) (hlast : last ≤ now)
    (hgap : now ≤ last + counterSpan) : Settled (b.refill now) now := by
  have hupdated := h.updated_le
  rw [h.refill_eq hlast hgap]
  refine ⟨Nat.min_le_right _ _, ?_, ?_⟩
  · simp only [refillInterval_eq]
    omega
  · simp only [refillInterval_eq]
    omega

theorem Settled.allow (h : Settled b last) (hlast : last ≤ now)
    (hgap : now ≤ last + counterSpan) : Settled (b.allow now).2 now := by
  have hrefill := h.refill hlast hgap
  rw [Budget.allow]
  split_ifs with hzero
  · exact hrefill
  · exact ⟨Nat.le_trans (Nat.sub_le _ _) hrefill.tokens_le, hrefill.updated_le, hrefill.lag_lt⟩

/-- A second refill at the same moment changes nothing. -/
theorem Settled.refill_refill (h : Settled b last) (hlast : last ≤ now)
    (hgap : now ≤ last + counterSpan) :
    (b.refill now).refill now = b.refill now := by
  have hlag := (h.refill hlast hgap).lag_lt
  have hzero : (now - (b.refill now).updated) / refillInterval = 0 := by
    rw [refillInterval_eq] at hlag ⊢
    omega
  rw [Budget.refill, if_neg (not_not_intro hzero)]

theorem allowed_refill (h : Settled b last) (hlast : last ≤ now)
    (hgap : now ≤ last + counterSpan) (times : List ℕ) :
    (b.refill now).allowed (now :: times) = b.allowed (now :: times) := by
  have hallow : (b.refill now).allow now = b.allow now := by
    rw [Budget.allow, Budget.allow, h.refill_refill hlast hgap]
  rw [Budget.allowed, Budget.allowed, hallow]

/-! ### The rate that is kept -/

theorem within_cons (start length now : ℕ) (times : List ℕ) :
    within start length (now :: times) =
      within start length times + if start ≤ now ∧ now ≤ start + length then 1 else 0 := by
  simp [within, List.countP_cons]

/-- Calls after the window are not in it. -/
theorem within_allowed_of_late (b : Budget) (hlate : start + length < last) :
    ∀ {times}, Calls gap last times → within start length (b.allowed times) = 0 := by
  intro times
  induction times generalizing b last with
  | nil =>
    intro _
    rfl
  | cons now times ih =>
    rintro ⟨hlast, -, hcalls⟩
    have hnow : start + length < now := Nat.lt_of_lt_of_le hlate hlast
    rw [Budget.allowed]
    split_ifs
    · rw [within_cons, ih _ hnow hcalls, if_neg (by omega)]
    · exact ih _ hnow hcalls

/-- What one call takes from the tokens left and the intervals that end in time. -/
theorem Settled.spent_le (h : Settled b last) (hlast : last ≤ now)
    (hgap : now ≤ last + counterSpan) {stop : ℕ} (hnow : now ≤ stop) :
    (b.allow now).2.tokens + (stop - (b.allow now).2.updated) / refillInterval +
        (if (b.allow now).1 then 1 else 0) ≤
      b.tokens + (stop - b.updated) / refillInterval := by
  have hupdated := h.updated_le
  have hsplit : (now - b.updated) / refillInterval +
      (stop - (b.updated + refillInterval * ((now - b.updated) / refillInterval))) /
        refillInterval = (stop - b.updated) / refillInterval := by
    rw [refillInterval_eq]
    omega
  rw [Budget.allow, h.refill_eq hlast hgap]
  generalize (now - b.updated) / refillInterval = count at hsplit ⊢
  by_cases hzero : min (b.tokens + count) duplicateBurst = 0
  · simp only [if_pos hzero, Bool.false_eq_true, if_false]
    omega
  · simp only [if_neg hzero, if_true]
    omega

/-- From a call on, the tokens left and the intervals that end in time are spent. -/
theorem within_allowed_le (hgap : gap ≤ counterSpan) :
    ∀ {times b last}, Settled b last → Calls gap last times →
      within start length (b.allowed times) ≤
        b.tokens + (start + length - b.updated) / refillInterval := by
  intro times
  induction times with
  | nil =>
    intro b last _ _
    exact Nat.zero_le _
  | cons now times ih =>
    rintro b last h ⟨hlast, hnext, hcalls⟩
    -- once a call is after the window, so are all that follow
    by_cases hlate : start + length < now
    · have hagain : Calls gap now (now :: times) :=
        ⟨Nat.le_refl _, Nat.le_add_right _ _, hcalls⟩
      have hnone : within start length (b.allowed (now :: times)) = 0 :=
        within_allowed_of_late b hlate hagain
      rw [hnone]
      exact Nat.zero_le _
    · have hnow : now ≤ last + counterSpan := by omega
      have hspent := h.spent_le hlast hnow (Nat.le_of_not_lt hlate)
      have hih := ih (h.allow hlast hnow) hcalls
      rw [Budget.allowed]
      split_ifs at hspent ⊢ with hallowed
      · rw [within_cons]
        split_ifs <;> omega
      · omega

/-- After a call there is room for a token; before the first one no time is left over. -/
def Spent (b : Budget) (last : ℕ) : Prop := b.tokens < duplicateBurst ∨ last = b.updated

theorem Settled.spent (h : Settled b last) (hlast : last ≤ now)
    (hgap : now ≤ last + counterSpan) : Spent (b.allow now).2 now := by
  have htokens := (h.refill hlast hgap).tokens_le
  left
  rw [duplicateBurst_eq] at htokens ⊢
  rw [Budget.allow]
  split_ifs with hzero
  · show (b.refill now).tokens < 16
    omega
  · show (b.refill now).tokens - 1 < 16
    omega

/-- A bound on the calls from the first in the window on is one on all calls. -/
theorem within_allowed_of_begun {P : Budget → ℕ → Prop} {bound : ℕ} (hgap : gap ≤ counterSpan)
    (hstep : ∀ b last now, Settled b last → last ≤ now → now ≤ last + counterSpan →
      P (b.allow now).2 now)
    (hbegun : ∀ b last now times, Settled b last → P b last → start ≤ now →
      Calls gap last (now :: times) → within start length (b.allowed (now :: times)) ≤ bound) :
    ∀ {times b last}, Settled b last → P b last → Calls gap last times →
      within start length (b.allowed times) ≤ bound := by
  intro times
  induction times with
  | nil =>
    intro b last _ _ _
    exact Nat.zero_le _
  | cons now times ih =>
    intro b last h hb hcalls
    obtain ⟨hlast, hnext, hrest⟩ := hcalls
    have hnow : now ≤ last + counterSpan := by omega
    -- a call before the window counts for nothing but what it makes of the budget
    by_cases hearly : now < start
    · have hih := ih (h.allow hlast hnow) (hstep b last now h hlast hnow) hrest
      rw [Budget.allowed]
      split_ifs
      · rw [within_cons, if_neg (by omega)]
        exact hih
      · exact hih
    · exact hbegun b last now times h hb (Nat.le_of_not_lt hearly) ⟨hlast, hnext, hrest⟩

/-- In a window: the burst, and the intervals that fit in the window and a pause before it. -/
theorem within_allowed_gap (hgap : gap ≤ counterSpan) (h : Settled b last) (hspent : Spent b last)
    (hcalls : Calls gap last times) :
    within start length (b.allowed times) ≤ duplicateBurst + (gap + length) / refillInterval := by
  refine within_allowed_of_begun (P := Spent) hgap ?_ ?_ h hspent hcalls
  · intro b last now h hlast hnow
    exact h.spent hlast hnow
  · -- a pause before the window the budget was not full, or new
    intro b last now times h hspent hstart hcalls
    have hle : within start length (b.allowed (now :: times)) ≤
        b.tokens + (start + length - b.updated) / refillInterval :=
      within_allowed_le hgap h hcalls
    have hlag := h.lag_lt
    have htokens := h.tokens_le
    have hnext := hcalls.2.1
    rw [Spent] at hspent
    simp only [refillInterval_eq, duplicateBurst_eq] at hle hlag htokens hspent ⊢
    omega

/-- In a window: the burst, and one token for every interval begun. -/
theorem within_allowed_begun (hgap : gap ≤ counterSpan) (h : Settled b last)
    (hcalls : Calls gap last times) :
    within start length (b.allowed times) ≤
      duplicateBurst + (length + (refillInterval - 1)) / refillInterval := by
  refine within_allowed_of_begun (P := fun _ _ => True) hgap ?_ ?_ h trivial hcalls
  · intro b last now _ _ _
    trivial
  · -- the first call in the window, or after it, finds less than an interval not yet counted
    rintro b last now times h - hstart ⟨hlast, hnext, hrest⟩
    have hnow : now ≤ last + counterSpan := by omega
    have hsettled := h.refill hlast hnow
    have htokens := hsettled.tokens_le
    have hlag := hsettled.lag_lt
    have hle : within start length ((b.refill now).allowed (now :: times)) ≤
        (b.refill now).tokens + (start + length - (b.refill now).updated) / refillInterval :=
      within_allowed_le hgap hsettled
        (And.intro (Nat.le_refl now) ⟨Nat.le_add_right now gap, hrest⟩)
    rw [← allowed_refill h hlast hnow]
    simp only [refillInterval_eq, duplicateBurst_eq] at hle htokens hlag ⊢
    omega

/-- The intervals that can end in a window of this length: the first one ends as late after the
last refill as a pause allows. -/
def intervals (gap length : ℕ) : ℕ := (min gap (refillInterval - 1) + length) / refillInterval

/-- In a window: the burst, and one token for every interval that can end in it. -/
theorem tokensWithin_le (hgap : gap ≤ counterSpan) (created : ℕ)
    (hcalls : Calls gap created times) :
    within start length ((Budget.new created).allowed times) ≤
      duplicateBurst + intervals gap length := by
  have hsettled := settled_new created
  have hpause : within start length ((Budget.new created).allowed times) ≤
      duplicateBurst + (gap + length) / refillInterval :=
    within_allowed_gap hgap hsettled (Or.inr rfl) hcalls
  have hbegun : within start length ((Budget.new created).allowed times) ≤
      duplicateBurst + (length + (refillInterval - 1)) / refillInterval :=
    within_allowed_begun hgap hsettled hcalls
  rw [intervals]
  rcases Nat.le_total gap (refillInterval - 1) with hshort | hlong
  · rw [Nat.min_eq_left hshort]
    exact hpause
  · rw [Nat.min_eq_right hlong, Nat.add_comm (refillInterval - 1)]
    exact hbegun

/-- The burst and the one call over it are on both sides of the documented rate. -/
theorem rate_iff (count length : ℕ) :
    (duplicateBurst + count) * nanosPerSecond ≤
        (duplicateBurst + 1) * nanosPerSecond + duplicatesPerSecond * length ↔
      (count - 1) * nanosPerSecond ≤ duplicatesPerSecond * length := by
  simp only [duplicateBurst_eq, nanosPerSecond, duplicatesPerSecond]
  omega

/-- The documented rate is kept in the windows where the intervals of twelve milliseconds that
can end in them are worth no more than it. -/
theorem rateKept_of_worth (hgap : gap ≤ counterSpan)
    (hworth : (intervals gap length - 1) * nanosPerSecond ≤ duplicatesPerSecond * length) :
    RateKept gap length := by
  intro created times start hcalls
  have hle : within start length ((Budget.new created).allowed times) ≤
      duplicateBurst + intervals gap length := tokensWithin_le hgap created hcalls
  calc within start length ((Budget.new created).allowed times) * nanosPerSecond
      ≤ (duplicateBurst + intervals gap length) * nanosPerSecond := Nat.mul_le_mul_right _ hle
    _ ≤ (duplicateBurst + 1) * nanosPerSecond + duplicatesPerSecond * length :=
        (rate_iff _ _).mpr hworth

theorem mem_of_mem_allowed (h : now ∈ b.allowed times) : now ∈ times := by
  induction times generalizing b with
  | nil => exact h
  | cons other times ih =>
    rw [Budget.allowed] at h
    split_ifs at h
    · rcases List.mem_cons.mp h with rfl | h
      · exact List.mem_cons_self
      · exact List.mem_cons_of_mem _ (ih h)
    · exact List.mem_cons_of_mem _ (ih h)

theorem within_eq_length (h : ∀ now ∈ times, start ≤ now ∧ now ≤ start + length) :
    within start length times = times.length := by
  refine List.countP_eq_length.mpr ?_
  intro now hnow
  exact decide_eq_true (h now hnow)

theorem calls_zero (h : Calls 0 last times) : ∀ now ∈ times, now = last := by
  induction times generalizing last with
  | nil =>
    intro now hnow
    exact absurd hnow List.not_mem_nil
  | cons first times ih =>
    obtain ⟨hlast, hfirst, hrest⟩ := h
    obtain rfl : first = last := Nat.le_antisymm hfirst hlast
    intro now hnow
    rcases List.mem_cons.mp hnow with rfl | hnow
    · rfl
    · exact ih hrest now hnow

/-- Calls at one moment only spend the burst. -/
theorem rateKept_of_zero : RateKept 0 length := by
  intro created times start hcalls
  have hnow : ∀ now ∈ (Budget.new created).allowed times, created ≤ now ∧ now ≤ created + 0 := by
    intro now hallowed
    rw [calls_zero hcalls now (mem_of_mem_allowed hallowed)]
    omega
  have hlength : ((Budget.new created).allowed times).length ≤ duplicateBurst := by
    have hle : within created 0 ((Budget.new created).allowed times) ≤
        (Budget.new created).tokens + (created + 0 - created) / refillInterval :=
      within_allowed_le (Nat.zero_le _) (settled_new created) hcalls
    rw [within_eq_length hnow, Nat.add_zero, Nat.sub_self, Nat.zero_div] at hle
    exact hle
  have hwithin : within start length ((Budget.new created).allowed times) ≤ duplicateBurst :=
    Nat.le_trans List.countP_le_length hlength
  simp only [duplicateBurst_eq, nanosPerSecond] at hwithin ⊢
  omega

/-! ### A busy caller -/

/-- Calls at a steady pace. -/
def ticks (pace : ℕ) : ℕ → ℕ → List ℕ
  | _, 0 => []
  | last, count + 1 => (last + pace) :: ticks pace (last + pace) count

variable {pace count : ℕ}

theorem length_ticks (pace last count : ℕ) : (ticks pace last count).length = count := by
  induction count generalizing last with
  | zero => rfl
  | succ count ih => rw [ticks, List.length_cons, ih]

theorem mem_ticks (h : now ∈ ticks pace last count) :
    last + pace ≤ now ∧ now ≤ last + count * pace := by
  induction count generalizing last with
  | zero => exact absurd h List.not_mem_nil
  | succ count ih =>
    rw [ticks, List.mem_cons] at h
    rw [Nat.succ_mul]
    rcases h with rfl | h
    · omega
    · have hbounds := ih h
      omega

theorem calls_ticks_append (hpace : pace ≤ gap) (h : Calls gap (last + count * pace) times) :
    Calls gap last (ticks pace last count ++ times) := by
  induction count generalizing last with
  | zero =>
    rw [Nat.zero_mul] at h
    exact h
  | succ count ih =>
    refine ⟨Nat.le_add_right _ _, Nat.add_le_add_left hpace _, ih ?_⟩
    rw [Nat.add_assoc, Nat.add_comm pace, ← Nat.succ_mul]
    exact h

theorem calls_ticks (hpace : pace ≤ gap) (last count : ℕ) :
    Calls gap last (ticks pace last count) := by
  have hcalls : Calls gap last (ticks pace last count ++ []) := calls_ticks_append hpace trivial
  rw [List.append_nil] at hcalls
  exact hcalls

theorem calls_replicate (count : ℕ) (hlast : last ≤ now) (hgap : now ≤ last + gap)
    (h : Calls gap now times) : Calls gap last (List.replicate (count + 1) now ++ times) := by
  induction count generalizing last with
  | zero => exact ⟨hlast, hgap, h⟩
  | succ count ih =>
    rw [List.replicate_succ, List.cons_append]
    exact ⟨hlast, hgap, ih (Nat.le_refl _) (Nat.le_add_right _ _)⟩

namespace Budget

theorem allowed_append (b : Budget) (xs ys : List ℕ) :
    b.allowed (xs ++ ys) = b.allowed xs ++ (b.after xs).allowed ys := by
  induction xs generalizing b with
  | nil => rfl
  | cons now xs ih =>
    rw [List.cons_append, allowed, allowed, ih]
    split_ifs
    · rfl
    · rfl

/-- One token for each interval, taken as soon as it is there. -/
theorem allowed_ticks (updated count : ℕ) :
    ({ tokens := 0, updated } : Budget).allowed (ticks refillInterval updated count) =
      ticks refillInterval updated count := by
  induction count generalizing updated with
  | zero => rfl
  | succ count ih =>
    have hallow : ({ tokens := 0, updated } : Budget).allow (updated + refillInterval) =
        (true, { tokens := 0, updated := updated + refillInterval }) := by
      simp [allow, refill]
    rw [ticks, allowed, hallow, if_pos rfl, ih]

end Budget

theorem within_append (start length : ℕ) (xs ys : List ℕ) :
    within start length (xs ++ ys) = within start length xs + within start length ys :=
  List.countP_append

/-- Sixteen calls just before the first interval ends, then one at the end of each. -/
def busy (count : ℕ) : List ℕ :=
  List.replicate duplicateBurst (refillInterval - 1) ++ ticks refillInterval 0 (count + 1)

theorem calls_busy (hgap : refillInterval ≤ gap) (count : ℕ) : Calls gap 0 (busy count) := by
  rw [refillInterval_eq] at hgap
  have hticks : Calls gap refillInterval (ticks refillInterval refillInterval count) :=
    calls_ticks hgap _ _
  have hnext : refillInterval - 1 ≤ 0 + refillInterval ∧
      0 + refillInterval ≤ refillInterval - 1 + gap := by
    rw [refillInterval_eq]
    omega
  have hfirst : refillInterval - 1 ≤ 0 + gap := by
    rw [refillInterval_eq]
    omega
  refine calls_replicate 15 (Nat.zero_le _) hfirst ?_
  rw [ticks]
  refine ⟨hnext.1, hnext.2, ?_⟩
  rw [Nat.zero_add]
  exact hticks

theorem allowed_busy (count : ℕ) : (Budget.new 0).allowed (busy count) = busy count := by
  have hburst : (Budget.new 0).allowed (List.replicate duplicateBurst (refillInterval - 1)) =
      List.replicate duplicateBurst (refillInterval - 1) := by
    decide
  have hspent : (Budget.new 0).after (List.replicate duplicateBurst (refillInterval - 1)) =
      { tokens := 0, updated := 0 } := by
    decide
  rw [busy, Budget.allowed_append, hburst, hspent, Budget.allowed_ticks]

/-- All of them are in the window, when it is that long. -/
theorem within_busy (hcount : count * refillInterval + 1 ≤ length) :
    within (refillInterval - 1) length (busy count) = duplicateBurst + (count + 1) := by
  have hall : ∀ now ∈ busy count,
      refillInterval - 1 ≤ now ∧ now ≤ refillInterval - 1 + length := by
    intro now hnow
    rw [refillInterval_eq] at hcount ⊢
    rcases List.mem_append.mp hnow with hburst | htick
    · rw [List.eq_of_mem_replicate hburst, refillInterval_eq]
      omega
    · have hbounds := mem_ticks htick
      rw [refillInterval_eq] at hbounds
      omega
  rw [within_eq_length hall, busy, List.length_append, List.length_replicate, length_ticks]

/-! ### A restless caller -/

/-- A call every nanosecond takes each token as soon as it is there. -/
theorem length_allowed_ticks {updated : ℕ} (hupdated : updated ≤ last)
    (hlag : last < updated + refillInterval) (count : ℕ) :
    (({ tokens := 0, updated } : Budget).allowed (ticks 1 last count)).length =
      (last + count - updated) / refillInterval := by
  induction count generalizing last updated with
  | zero =>
    rw [refillInterval_eq] at hlag ⊢
    show 0 = (last + 0 - updated) / 12000000
    omega
  | succ count ih =>
    rw [ticks, Budget.allowed]
    -- no tokens are left, so the call is allowed exactly when it earns one
    by_cases hend : last + 1 = updated + refillInterval
    · -- an interval ends at this call
      have hcounted : (last + 1 - updated) / refillInterval = 1 := by
        rw [refillInterval_eq] at hend ⊢
        omega
      have hallow : ({ tokens := 0, updated } : Budget).allow (last + 1) =
          (true, { tokens := 0, updated := updated + refillInterval }) := by
        rw [Budget.allow, Budget.refill]
        simp only [hcounted]
        rfl
      have hlate : last + 1 < updated + refillInterval + refillInterval := by
        rw [hend]
        exact Nat.lt_add_of_pos_right (Nat.succ_pos _)
      have hnext := ih (Nat.le_of_eq hend.symm) hlate
      rw [hallow, if_pos rfl, List.length_cons, hnext]
      rw [refillInterval_eq] at hend ⊢
      omega
    · have hcounted : (last + 1 - updated) / refillInterval = 0 := by
        rw [refillInterval_eq] at hlag hend ⊢
        omega
      have hallow : ({ tokens := 0, updated } : Budget).allow (last + 1) =
          (false, { tokens := 0, updated }) := by
        rw [Budget.allow, Budget.refill]
        simp only [hcounted]
        rfl
      have hlate : last + 1 < updated + refillInterval := by omega
      have hnext := ih (Nat.le_succ_of_le hupdated) hlate
      rw [hallow, if_neg Bool.false_ne_true, hnext]
      congr 1
      omega

/-- The burst as late before the first refill as a pause allows, then a call every nanosecond
of the window. -/
def restless (gap length : ℕ) : List ℕ :=
  List.replicate duplicateBurst (min gap (refillInterval - 1)) ++
    ticks 1 (min gap (refillInterval - 1)) length

theorem calls_restless (hgap : 0 < gap) (length : ℕ) : Calls gap 0 (restless gap length) := by
  refine calls_replicate 15 (Nat.zero_le _) ?_ (calls_ticks hgap _ _)
  rw [Nat.zero_add]
  exact Nat.min_le_left _ _

/-- Before the first refill the whole burst is allowed. -/
theorem burst_spent (tokens : ℕ) (hnow : now < refillInterval) :
    ({ tokens, updated := 0 } : Budget).allowed (List.replicate tokens now) =
        List.replicate tokens now ∧
      ({ tokens, updated := 0 } : Budget).after (List.replicate tokens now) =
        { tokens := 0, updated := 0 } := by
  induction tokens with
  | zero => exact ⟨rfl, rfl⟩
  | succ tokens ih =>
    have hcounted : (now - 0) / refillInterval = 0 := Nat.div_eq_of_lt hnow
    have hallow : ({ tokens := tokens + 1, updated := 0 } : Budget).allow now =
        (true, { tokens, updated := 0 }) := by
      rw [Budget.allow, Budget.refill]
      simp only [hcounted]
      rfl
    constructor
    · rw [List.replicate_succ, Budget.allowed, hallow, if_pos rfl, ih.1]
    · rw [List.replicate_succ, Budget.after, List.foldl_cons, hallow]
      exact ih.2

theorem within_restless (gap length : ℕ) :
    within (min gap (refillInterval - 1)) length ((Budget.new 0).allowed (restless gap length)) =
      duplicateBurst + intervals gap length := by
  have hlate : min gap (refillInterval - 1) < refillInterval := by
    rw [refillInterval_eq]
    omega
  generalize hstart : min gap (refillInterval - 1) = start at hlate
  obtain ⟨hburst, hspent⟩ := burst_spent duplicateBurst hlate
  have hall : ∀ now ∈ (Budget.new 0).allowed (restless gap length),
      start ≤ now ∧ now ≤ start + length := by
    intro now hnow
    rw [restless, hstart] at hnow
    rcases List.mem_append.mp (mem_of_mem_allowed hnow) with hnow | hnow
    · rw [List.eq_of_mem_replicate hnow]
      omega
    · have hbounds := mem_ticks hnow
      omega
  -- so they are as many as the burst and the ends of intervals after it
  rw [within_eq_length hall, restless, hstart, Budget.allowed_append, List.length_append]
  have hnew : Budget.new 0 = { tokens := duplicateBurst, updated := 0 } := rfl
  rw [hnew, hburst, hspent, List.length_replicate,
    length_allowed_ticks (Nat.zero_le _) (by rw [Nat.zero_add]; exact hlate), intervals, hstart,
    Nat.sub_zero]

theorem worth_of_rateKept (hgap : 0 < gap) (h : RateKept gap length) :
    (intervals gap length - 1) * nanosPerSecond ≤ duplicatesPerSecond * length := by
  have hkept := h 0 _ (min gap (refillInterval - 1)) (calls_restless hgap length)
  rw [within_restless] at hkept
  exact (rate_iff _ _).mp hkept

/-! ### A counter that does not hold the time passed -/

/-- When more time has passed than the counter holds, a part of it is left. -/
theorem allow_of_lag (h : b.updated + counterSpan ≤ now) :
    b.allow now =
      (true, { tokens := duplicateBurst - 1
               updated := b.updated + counterSpan }) := by
  have hmany : maxRefill ≤ (now - b.updated) / refillInterval := by
    rw [counterSpan_eq] at h
    rw [maxRefill_eq, refillInterval_eq]
    omega
  generalize hcount : (now - b.updated) / refillInterval = count at hmany
  have hnonzero : count ≠ 0 := by
    rintro rfl
    exact absurd hmany (Nat.not_succ_le_zero _)
  have htokens : min (min (b.tokens + maxRefill) maxRefill) duplicateBurst = duplicateBurst := by
    rw [maxRefill_eq, duplicateBurst_eq]
    omega
  have hrefill : b.refill now =
      { tokens := duplicateBurst, updated := b.updated + counterSpan } := by
    rw [Budget.refill, hcount]
    simp only [if_pos hnonzero, Nat.min_eq_right hmany, htokens, counterSpan,
      Nat.mul_comm maxRefill refillInterval]
  rw [Budget.allow, hrefill]
  exact if_neg (Nat.succ_ne_zero 15)

/-- Steady calls with more between them than the counter holds: each leaves a nanosecond
more behind. -/
theorem lag_after_ticks {lag : ℕ} (count : ℕ) (h : b.updated + lag = last)
    (hlag : refillInterval ≤ lag + 1) :
    (b.after (ticks (counterSpan + 1) last count)).updated + (lag + count) =
      last + count * (counterSpan + 1) := by
  induction count generalizing b last lag with
  | zero =>
    rw [Nat.zero_mul]
    exact h
  | succ count ih =>
    have hallow : b.allow (last + (counterSpan + 1)) =
        (true, { tokens := duplicateBurst - 1, updated := b.updated + counterSpan }) := by
      refine allow_of_lag ?_
      omega
    -- the call comes a nanosecond later than the counter reaches
    have hlag' : (b.allow (last + (counterSpan + 1))).2.updated + (lag + 1) =
        last + (counterSpan + 1) := by
      rw [hallow]
      show b.updated + counterSpan + (lag + 1) = last + (counterSpan + 1)
      omega
    have hnext := ih hlag' (Nat.le_succ_of_le hlag)
    rw [ticks, Budget.after, List.foldl_cons, Nat.succ_mul]
    rw [Budget.after] at hnext
    omega

/-- What is left behind refills the budget again and again at one moment. -/
theorem allowed_replicate (h : b.updated + count * counterSpan ≤ now) :
    b.allowed (List.replicate count now) = List.replicate count now := by
  induction count generalizing b with
  | zero => rfl
  | succ count ih =>
    rw [Nat.succ_mul] at h
    have hallow : b.allow now =
        (true, { tokens := duplicateBurst - 1, updated := b.updated + counterSpan }) := by
      refine allow_of_lag ?_
      omega
    have hrest : (b.allow now).2.updated + count * counterSpan ≤ now := by
      rw [hallow]
      show b.updated + counterSpan + count * counterSpan ≤ now
      omega
    rw [List.replicate_succ, Budget.allowed, ih hrest, hallow]
    rfl

/-- A long history that leaves time behind, then calls at one moment. -/
def neglected (count : ℕ) : List ℕ :=
  (refillInterval - 1) :: ticks (counterSpan + 1) (refillInterval - 1) (count * counterSpan)

def neglectedEnd (count : ℕ) : ℕ :=
  (refillInterval - 1) + count * counterSpan * (counterSpan + 1)

theorem allowed_neglected (count : ℕ) :
    ((Budget.new 0).after (neglected count)).allowed
        (List.replicate count (neglectedEnd count)) =
      List.replicate count (neglectedEnd count) := by
  have hfirst : ((Budget.new 0).allow (refillInterval - 1)).2.updated + (refillInterval - 1) =
      refillInterval - 1 := by
    decide
  have hlag : refillInterval ≤ refillInterval - 1 + 1 := Nat.le_refl _
  have hafter := lag_after_ticks (count * counterSpan) hfirst hlag
  refine allowed_replicate ?_
  rw [neglected, neglectedEnd, Budget.after, List.foldl_cons]
  rw [Budget.after] at hafter
  omega

theorem calls_cons (hlast : last ≤ now) (hgap : now ≤ last + gap) (h : Calls gap now times) :
    Calls gap last (now :: times) := ⟨hlast, hgap, h⟩

theorem calls_same (gap now count : ℕ) : Calls gap now (List.replicate count now) := by
  induction count with
  | zero => trivial
  | succ count ih => exact ⟨Nat.le_refl _, Nat.le_add_right _ _, ih⟩

theorem calls_neglected (hgap : counterSpan < gap) (count : ℕ) :
    Calls gap 0 (neglected count ++ List.replicate count (neglectedEnd count)) := by
  have hfirst : refillInterval - 1 ≤ 0 + gap := by
    rw [counterSpan_eq] at hgap
    rw [refillInterval_eq]
    omega
  have hburst := calls_same gap (neglectedEnd count) count
  generalize List.replicate count (neglectedEnd count) = burst at hburst ⊢
  rw [neglectedEnd] at hburst
  rw [neglected, List.cons_append]
  exact calls_cons (Nat.zero_le _) hfirst (calls_ticks_append (Nat.succ_le_of_lt hgap) hburst)

/-- With calls that far apart no rate is kept. -/
theorem gap_le_of_rateKept (h : RateKept gap length) : gap ≤ counterSpan := by
  by_contra hgap
  have hkept := h 0 _ (neglectedEnd (length + 18))
    (calls_neglected (Nat.lt_of_not_le hgap) (length + 18))
  have hburst : within (neglectedEnd (length + 18)) length
      (List.replicate (length + 18) (neglectedEnd (length + 18))) = length + 18 := by
    rw [within_eq_length, List.length_replicate]
    intro now hnow
    rw [List.eq_of_mem_replicate hnow]
    exact ⟨Nat.le_refl _, Nat.le_add_right _ _⟩
  rw [Budget.allowed_append, allowed_neglected, within_append, hburst] at hkept
  have hmany : (length + 18) * nanosPerSecond ≤
      (duplicateBurst + 1) * nanosPerSecond + duplicatesPerSecond * length :=
    Nat.le_trans (Nat.mul_le_mul_right _ (Nat.le_add_left _ _)) hkept
  simp only [nanosPerSecond, duplicatesPerSecond, duplicateBurst_eq] at hmany
  omega

/-- With calls no further apart than `gap` the documented rate is kept in every window of a
length exactly when that is not more than the counter holds, and the intervals that can end in
the window are worth no more than the rate, or all calls are made at one moment. -/
theorem rateKept_iff (gap length : ℕ) :
    RateKept gap length ↔
      gap ≤ counterSpan ∧
        (gap = 0 ∨ (intervals gap length - 1) * nanosPerSecond ≤ duplicatesPerSecond * length) := by
  constructor
  · intro h
    refine ⟨gap_le_of_rateKept h, ?_⟩
    rcases Nat.eq_zero_or_pos gap with hzero | hpos
    · exact Or.inl hzero
    · exact Or.inr (worth_of_rateKept hpos h)
  · rintro ⟨hspan, rfl | hworth⟩
    · exact rateKept_of_zero
    · exact rateKept_of_worth hspan hworth

/-- A hundred in a second, with calls no further apart than an interval. -/
theorem busy_second :
    Calls refillInterval 0 (busy 83) ∧
      within (refillInterval - 1) nanosPerSecond ((Budget.new 0).allowed (busy 83)) = 100 ∧
      ¬ 100 * nanosPerSecond ≤
        (duplicateBurst + 1) * nanosPerSecond + duplicatesPerSecond * nanosPerSecond := by
  refine ⟨calls_busy (Nat.le_refl _) 83, ?_, ?_⟩
  · rw [allowed_busy]
    exact within_busy (by decide)
  · decide

end Csqtt.FecBudget
