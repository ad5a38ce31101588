/-
The replay window against the model of its tests.

The model keeps a set of counters.  It extends a sequence number to the nearest counter, and
accepts a counter that is higher than all before it, or one within the window that is not in
the set yet.

* `accept_matches` — on counters the ring and the set answer alike;
* `rtp_trace_matches` — so they do on sequence numbers, if the nearest number past `u64::MAX` is
  taken for `u64::MAX`; for fewer than `2 ^ 48` packets there is none, and the model is that of
  the tests;
* `saturated_trace_differs` — at the end of the 64 bits the code and the tests' model part, and
  so they do if only 64-bit counters count as near.
-/
import Csqtt.ReplayWindow
import Mathlib.Data.Finset.Basic
import Mathlib.Data.Finset.Filter

namespace Csqtt.Replay

/-! ### The model -/

/-- The state of the tests' model. -/
structure Model where
  highest : Option ℕ := none
  seen : Finset ℕ := ∅

/-- `model_accept`, with the window of the code. -/
def Model.accept (m : Model) (counter : ℕ) : Model × Bool :=
  match m.highest with
  | none => (⟨some counter, insert counter m.seen⟩, true)
  | some current =>
    if current < counter then
      (⟨some counter, insert counter (m.seen.filter fun value => counter - value < windowSize)⟩,
        true)
    else if windowSize ≤ current - counter then (m, false)
    else (⟨some current, insert counter m.seen⟩, counter ∉ m.seen)

/-- `abs_diff`. -/
def absDiff (a b : ℕ) : ℕ := a - b + (b - a)

/-- The candidate if it is nearer to `highest` than what has been selected so far. -/
def nearer (highest selected candidate : ℕ) : ℕ :=
  if absDiff candidate highest < absDiff selected highest then candidate else selected

/-- The counter in the block of `highest`. -/
def currentCounter (highest : ℕ) (sequence : BitVec 16) : ℕ :=
  highest / 2 ^ 16 * 2 ^ 16 + sequence.toNat

/-- That counter, or the one a turn before it. -/
def currentOrPrevious (highest : ℕ) (sequence : BitVec 16) : ℕ :=
  if 2 ^ 16 ≤ currentCounter highest sequence then
    nearer highest (currentCounter highest sequence) (currentCounter highest sequence - 2 ^ 16)
  else currentCounter highest sequence

/-- `extend_rtp_reference`. -/
def extendRtpReference (highest : ℕ) (sequence : BitVec 16) : ℕ :=
  nearer highest (currentOrPrevious highest sequence)
    (saturatingAdd (currentCounter highest sequence) (2 ^ 16))

/-- The nearest 64-bit counter with these low bits. -/
def extendNearest64 (highest : ℕ) (sequence : BitVec 16) : ℕ :=
  if currentCounter highest sequence + 2 ^ 16 ≤ u64Max then
    nearer highest (currentOrPrevious highest sequence) (currentCounter highest sequence + 2 ^ 16)
  else currentOrPrevious highest sequence

/-- The nearest natural number with these low bits. -/
def nearest (highest : ℕ) (sequence : BitVec 16) : ℕ :=
  nearer highest (currentOrPrevious highest sequence) (currentCounter highest sequence + 2 ^ 16)

def extendCapped (highest : ℕ) (sequence : BitVec 16) : ℕ := min (nearest highest sequence) u64Max

def Model.acceptRtp (extend : ℕ → BitVec 16 → ℕ) (m : Model) (sequence : BitVec 16) :
    Model × Bool :=
  match m.highest with
  | none => m.accept sequence.toNat
  | some highest => m.accept (extend highest sequence)

/-- The answers to a sequence of packets. -/
def answers {σ : Type} (accept : σ → BitVec 16 → σ × Bool) : σ → List (BitVec 16) → List Bool
  | _, [] => []
  | s, sequence :: rest =>
    (accept s sequence).2 :: answers accept (accept s sequence).1 rest

/-- `rtp_trace_matches`, with the model's way to extend a sequence number. -/
def RtpTraceMatches (extend : ℕ → BitVec 16 → ℕ) (sequences : List (BitVec 16)) : Prop :=
  answers ReplayWindow.acceptRtp ReplayWindow.default sequences =
    answers (Model.acceptRtp extend) {} sequences

/-! ### Extending a sequence number -/

variable {highest c k : ℕ} {sequence : BitVec 16} {w : ReplayWindow} {m : Model}

theorem nearer_le (highest selected candidate : ℕ) :
    absDiff (nearer highest selected candidate) highest ≤ absDiff selected highest ∧
      absDiff (nearer highest selected candidate) highest ≤ absDiff candidate highest := by
  rw [nearer]
  split_ifs with h
  · exact ⟨h.le, le_rfl⟩
  · exact ⟨le_rfl, Nat.le_of_not_lt h⟩

theorem nearest_cases (highest : ℕ) (sequence : BitVec 16) :
    nearest highest sequence = currentCounter highest sequence ∨
      (2 ^ 16 ≤ currentCounter highest sequence ∧
        nearest highest sequence = currentCounter highest sequence - 2 ^ 16) ∨
      nearest highest sequence = currentCounter highest sequence + 2 ^ 16 := by
  have hnearer : ∀ a b, nearer highest a b = a ∨ nearer highest a b = b := fun a b => by
    rw [nearer]
    split_ifs
    · exact .inr rfl
    · exact .inl rfl
  rcases hnearer (currentOrPrevious highest sequence) (currentCounter highest sequence + 2 ^ 16)
    with h | h
  · rw [nearest, h, currentOrPrevious]
    split_ifs with hturn
    · rcases hnearer (currentCounter highest sequence)
        (currentCounter highest sequence - 2 ^ 16) with h' | h'
      · exact .inl h'
      · exact .inr (.inl ⟨hturn, h'⟩)
    · exact .inl rfl
  · exact .inr (.inr h)

/-- The model selects a number with the low bits of the packet, and none is nearer. -/
theorem nearest_spec (highest : ℕ) (sequence : BitVec 16) :
    nearest highest sequence % 2 ^ 16 = sequence.toNat ∧
      ∀ c, c % 2 ^ 16 = sequence.toNat →
        absDiff (nearest highest sequence) highest ≤ absDiff c highest := by
  have hlt := sequence.isLt
  have hcurrent : currentCounter highest sequence =
      highest / 2 ^ 16 * 2 ^ 16 + sequence.toNat := rfl
  constructor
  · rcases nearest_cases highest sequence with h | ⟨hturn, h⟩ | h <;> rw [h] <;> omega
  · intro c hc
    obtain ⟨hle, hnext⟩ := nearer_le highest (currentOrPrevious highest sequence)
      (currentCounter highest sequence + 2 ^ 16)
    rw [← nearest] at hle hnext
    have hbelow : absDiff (currentOrPrevious highest sequence) highest ≤
        absDiff (currentCounter highest sequence) highest ∧
        (2 ^ 16 ≤ currentCounter highest sequence →
          absDiff (currentOrPrevious highest sequence) highest ≤
            absDiff (currentCounter highest sequence - 2 ^ 16) highest) := by
      rw [currentOrPrevious]
      split_ifs with hturn
      · obtain ⟨h₁, h₂⟩ := nearer_le highest (currentCounter highest sequence)
          (currentCounter highest sequence - 2 ^ 16)
        exact ⟨h₁, fun _ => h₂⟩
      · exact ⟨le_rfl, fun h => absurd h hturn⟩
    unfold absDiff at *
    omega

/-- The selection, by where the packet stands in the block of `highest`. -/
theorem nearest_eq (highest : ℕ) (sequence : BitVec 16) :
    nearest highest sequence =
      if sequence.toNat + 2 ^ 15 < highest % 2 ^ 16 then
        currentCounter highest sequence + 2 ^ 16
      else if highest % 2 ^ 16 + 2 ^ 15 < sequence.toNat ∧
          2 ^ 16 ≤ currentCounter highest sequence then
        currentCounter highest sequence - 2 ^ 16
      else currentCounter highest sequence := by
  have hlt := sequence.isLt
  have hcurrent : currentCounter highest sequence =
      highest / 2 ^ 16 * 2 ^ 16 + sequence.toNat := rfl
  have hsplit := Nat.div_add_mod' highest (2 ^ 16)
  have hlow := Nat.mod_lt highest (show 0 < 2 ^ 16 by decide)
  unfold nearest currentOrPrevious nearer absDiff
  generalize currentCounter highest sequence = current at *
  generalize highest % 2 ^ 16 = low at *
  generalize highest / 2 ^ 16 * 2 ^ 16 = base at *
  split_ifs <;> omega

/-- The comparisons of `accept_rtp` select what is nearest. -/
theorem extend_eq_capped (h : highest ≤ u64Max) :
    ReplayWindow.extend highest sequence = extendCapped highest sequence := by
  have hlt := sequence.isLt
  rw [extendCapped, nearest_eq]
  unfold ReplayWindow.extend saturatingAdd currentCounter
  unfold u64Max at *
  simp only
  split_ifs <;> omega

/-- Below the last block nothing is cut off. -/
theorem reference_eq_capped (h : highest < 2 ^ 64 - 2 ^ 16) :
    extendRtpReference highest sequence = extendCapped highest sequence := by
  have hlt := sequence.isLt
  have hcurrent : currentCounter highest sequence =
      highest / 2 ^ 16 * 2 ^ 16 + sequence.toNat := rfl
  have hnext : saturatingAdd (currentCounter highest sequence) (2 ^ 16) =
      currentCounter highest sequence + 2 ^ 16 := by
    unfold saturatingAdd u64Max
    omega
  have hmax : nearest highest sequence ≤ u64Max := by
    unfold u64Max
    rcases nearest_cases highest sequence with h' | ⟨_, h'⟩ | h' <;> omega
  rw [extendRtpReference, hnext, ← nearest, extendCapped, min_eq_left hmax]

theorem extendCapped_lt (h : highest < k * 2 ^ 16) :
    extendCapped highest sequence < (k + 1) * 2 ^ 16 := by
  have hlt := sequence.isLt
  have hcurrent : currentCounter highest sequence =
      highest / 2 ^ 16 * 2 ^ 16 + sequence.toNat := rfl
  have hcases := nearest_eq highest sequence
  refine (min_le_left _ _).trans_lt ?_
  split_ifs at hcases <;> omega

/-! ### The ring against the set -/

/-- Nothing has been accepted yet, or the ring remembers what the model's set holds. -/
def Follows (w : ReplayWindow) (m : Model) : Prop :=
  w = ReplayWindow.default ∧ m = {} ∨
    ∃ highest, highest ≤ u64Max ∧ m.highest = some highest ∧ w.Represents ↑m.seen highest

theorem accept_first_matches (hc : c ≤ u64Max) :
    (ReplayWindow.default.accept c).2 = (Model.accept {} c).2 ∧
      Follows (ReplayWindow.default.accept c).1 (Model.accept {} c).1 := by
  obtain ⟨hans, hrep⟩ := ReplayWindow.accept_first (w := ReplayWindow.default) rfl
    (ReplayWindow.flag_blank none) c
  refine ⟨hans, .inr ⟨c, hc, rfl, ?_⟩⟩
  have hseen : ((Model.accept {} c).1.seen : Set ℕ) = {c} := by simp [Model.accept]
  rw [hseen]
  exact hrep

/-- On counters the ring and the set answer alike, and stay together. -/
theorem accept_matches (hmodel : m.highest = some highest) (hrep : w.Represents ↑m.seen highest)
    (hhighest : highest ≤ u64Max) (hc : c ≤ u64Max) :
    (w.accept c).2 = (m.accept c).2 ∧ Follows (w.accept c).1 (m.accept c).1 := by
  obtain ⟨hans, hrep'⟩ := hrep.accept c
  rw [Model.accept, hmodel]
  by_cases hahead : highest < c
  · rw [max_eq_right hahead.le] at hrep'
    simp only [if_pos hahead]
    refine ⟨hans.mpr ⟨fun hmem => ?_, by omega⟩, .inr ⟨c, hc, rfl, hrep'.highest, ?_⟩⟩
    · exact absurd (hrep.covers.le c hmem) (Nat.not_le.mpr hahead)
    -- what the model has dropped lies behind the window of `c`
    refine hrep'.covers.congr (fun d hd => ?_) fun d hd hwin => ?_
    · rcases Finset.mem_insert.mp (Finset.mem_coe.mp hd) with rfl | hd
      · exact le_rfl
      · exact (hrep.covers.le d (Finset.mem_coe.mpr (Finset.mem_filter.mp hd).1)).trans hahead.le
    · have hnear : c - d < windowSize := by omega
      simp only [Finset.mem_coe, Finset.mem_insert, Finset.mem_filter, Set.mem_insert_iff, hnear,
        and_true]
  have hle : c ≤ highest := Nat.le_of_not_lt hahead
  rw [max_eq_left hle] at hrep'
  simp only [if_neg hahead]
  by_cases hold : windowSize ≤ highest - c
  · rw [if_pos hold]
    refine ⟨?_, .inr ⟨highest, hhighest, hmodel, hrep'.highest, ?_⟩⟩
    · rw [← Bool.not_eq_true, hans]
      omega
    · refine hrep'.covers.congr hrep.covers.le fun d hd hwin => ?_
      rw [Set.mem_insert_iff, or_iff_right]
      rintro rfl
      omega
  · rw [if_neg hold]
    refine ⟨?_, .inr ⟨highest, hhighest, rfl, ?_⟩⟩
    · rw [Bool.eq_iff_iff, hans, decide_eq_true_eq, Finset.mem_coe]
      exact and_iff_left (by omega)
    · rw [Finset.coe_insert]
      exact hrep'

theorem acceptRtp_matches (h : Follows w m) (sequence : BitVec 16) :
    (w.acceptRtp sequence).2 = (m.acceptRtp extendCapped sequence).2 ∧
      Follows (w.acceptRtp sequence).1 (m.acceptRtp extendCapped sequence).1 := by
  rcases h with ⟨rfl, rfl⟩ | ⟨highest, hhighest, hmodel, hrep⟩
  · have hlt := sequence.isLt
    exact accept_first_matches (by unfold u64Max; omega)
  · rw [ReplayWindow.acceptRtp, Model.acceptRtp, hrep.highest, hmodel]
    simp only [extend_eq_capped hhighest]
    exact accept_matches hmodel hrep hhighest (min_le_right _ _)

theorem Follows.answers_eq (h : Follows w m) (sequences : List (BitVec 16)) :
    answers ReplayWindow.acceptRtp w sequences =
      answers (Model.acceptRtp extendCapped) m sequences := by
  induction sequences generalizing w m with
  | nil => rfl
  | cons sequence rest ih =>
    obtain ⟨hans, hnext⟩ := acceptRtp_matches h sequence
    rw [answers, answers, hans, ih hnext]

theorem trace_capped (sequences : List (BitVec 16)) : RtpTraceMatches extendCapped sequences :=
  Follows.answers_eq (.inl ⟨rfl, rfl⟩) sequences

/-! ### Short traces -/

theorem Model.highest_accept (m : Model) (c : ℕ) (hm : ∀ h, m.highest = some h → h < k)
    (hc : c < k) : ∀ h, (m.accept c).1.highest = some h → h < k := by
  rw [Model.accept]
  split
  · rintro h ⟨⟩
    exact hc
  · next current hcurrent =>
    have hlt := hm current hcurrent
    split_ifs
    · rintro h ⟨⟩
      exact hc
    · exact hm
    · rintro h ⟨⟩
      exact hlt

/-- So many packets after which the counters are below `k` blocks, the two models agree. -/
theorem answers_reference (sequences : List (BitVec 16)) :
    ∀ {m : Model} {k : ℕ}, (∀ h, m.highest = some h → h < k * 2 ^ 16) →
      k + sequences.length ≤ 2 ^ 48 →
      answers (Model.acceptRtp extendCapped) m sequences =
        answers (Model.acceptRtp extendRtpReference) m sequences := by
  induction sequences with
  | nil =>
    intro m k _ _
    rw [answers, answers]
  | cons sequence rest ih =>
    intro m k hm hlen
    rw [List.length_cons] at hlen
    have hlt := sequence.isLt
    have hsame : m.acceptRtp extendRtpReference sequence =
        m.acceptRtp extendCapped sequence := by
      rw [Model.acceptRtp, Model.acceptRtp]
      split
      · rfl
      · next highest hhighest =>
        have hbound := hm highest hhighest
        rw [reference_eq_capped (by omega)]
    have hnext : ∀ h, (m.acceptRtp extendCapped sequence).1.highest = some h →
        h < (k + 1) * 2 ^ 16 := by
      rw [Model.acceptRtp]
      split
      · next hnone =>
        have hfirst : sequence.toNat < (k + 1) * 2 ^ 16 := by omega
        exact Model.highest_accept m _ (fun h hh => nomatch hnone.symm.trans hh) hfirst
      · next highest hhighest =>
        have hlater : extendCapped highest sequence < (k + 1) * 2 ^ 16 :=
          extendCapped_lt (hm highest hhighest)
        have hgrown : ∀ h, m.highest = some h → h < (k + 1) * 2 ^ 16 := fun h hh =>
          (hm h hh).trans_le (Nat.mul_le_mul_right _ (Nat.le_succ k))
        exact Model.highest_accept m _ hgrown hlater
    rw [answers, answers, hsame, ih hnext (by omega)]

theorem trace_reference {sequences : List (BitVec 16)} (h : sequences.length ≤ 2 ^ 48) :
    RtpTraceMatches extendRtpReference sequences :=
  (trace_capped sequences).trans (answers_reference sequences (k := 0) nofun (by omega))

/-- On every trace the window answers as the set does with the nearest counter cut off at
`u64::MAX`, and on all but the longest ones as the model of the tests. -/
theorem rtp_trace_matches (sequences : List (BitVec 16)) :
    RtpTraceMatches extendCapped sequences ∧
      (sequences.length ≤ 2 ^ 48 → RtpTraceMatches extendRtpReference sequences) :=
  ⟨trace_capped sequences, trace_reference⟩

/-- A packet on each side of a block border, one of them twice. -/
theorem border_trace_matches : RtpTraceMatches extendRtpReference [65535, 0, 65534, 0] :=
  (rtp_trace_matches [65535, 0, 65534, 0]).2 (by decide)

/-! ### The end of the 64 bits -/

/-- The state after a sequence of packets. -/
def after {σ : Type} (accept : σ → BitVec 16 → σ × Bool) (s : σ) (sequences : List (BitVec 16)) :
    σ :=
  sequences.foldl (fun s sequence => (accept s sequence).1) s

theorem answers_append {σ : Type} (accept : σ → BitVec 16 → σ × Bool) (s : σ)
    (as bs : List (BitVec 16)) : answers accept s (as ++ bs) =
      answers accept s as ++ answers accept (after accept s as) bs := by
  induction as generalizing s with
  | nil => rfl
  | cons a as ih =>
    rw [List.cons_append, answers, answers, ih]
    rfl

theorem answers_length {σ : Type} (accept : σ → BitVec 16 → σ × Bool) (s : σ)
    (sequences : List (BitVec 16)) : (answers accept s sequences).length = sequences.length := by
  induction sequences generalizing s with
  | nil => rfl
  | cons sequence rest ih => rw [answers, List.length_cons, List.length_cons, ih]

/-- The packets `0, 2 ^ 14, 2 * 2 ^ 14, …`: each one is a whole window ahead. -/
def climb (n : ℕ) : List (BitVec 16) :=
  (List.range (n + 1)).map fun i => BitVec.ofNat 16 (i * 2 ^ 14)

theorem climb_succ (n : ℕ) : climb (n + 1) = climb n ++ [BitVec.ofNat 16 ((n + 1) * 2 ^ 14)] := by
  rw [climb, List.range_succ, List.map_append]
  rfl

/-- The model drops all counters but the last on the way up. -/
theorem after_climb {extend : ℕ → BitVec 16 → ℕ} (n : ℕ)
    (hextend : ∀ i < n, extend (i * 2 ^ 14) (BitVec.ofNat 16 ((i + 1) * 2 ^ 14)) =
      (i + 1) * 2 ^ 14) :
    after (Model.acceptRtp extend) {} (climb n) = ⟨some (n * 2 ^ 14), {n * 2 ^ 14}⟩ := by
  induction n with
  | zero => rfl
  | succ n ih =>
    have hgone : ({n * 2 ^ 14} : Finset ℕ).filter
        (fun value => (n + 1) * 2 ^ 14 - value < windowSize) = ∅ := by
      rw [Finset.filter_singleton, if_neg]
      unfold windowSize
      omega
    have hbefore := ih fun i hi => hextend i (by omega)
    rw [after] at hbefore
    rw [climb_succ, after, List.foldl_append, hbefore]
    show (Model.acceptRtp extend ⟨some (n * 2 ^ 14), {n * 2 ^ 14}⟩
      (BitVec.ofNat 16 ((n + 1) * 2 ^ 14))).1 = _
    simp only [Model.acceptRtp, hextend n (by omega), Model.accept]
    rw [if_pos (by omega), hgone]
    rfl

/-- Models that climb alike are left with the packets at the end. -/
theorem answers_climb {extend extend' : ℕ → BitVec 16 → ℕ} {n : ℕ} {rest : List (BitVec 16)}
    (hextend : ∀ i < n, extend (i * 2 ^ 14) (BitVec.ofNat 16 ((i + 1) * 2 ^ 14)) =
      (i + 1) * 2 ^ 14)
    (hextend' : ∀ i < n, extend' (i * 2 ^ 14) (BitVec.ofNat 16 ((i + 1) * 2 ^ 14)) =
      (i + 1) * 2 ^ 14)
    (h : answers (Model.acceptRtp extend) {} (climb n ++ rest) =
      answers (Model.acceptRtp extend') {} (climb n ++ rest)) :
    answers (Model.acceptRtp extend) ⟨some (n * 2 ^ 14), {n * 2 ^ 14}⟩ rest =
      answers (Model.acceptRtp extend') ⟨some (n * 2 ^ 14), {n * 2 ^ 14}⟩ rest := by
  rw [answers_append, answers_append, after_climb n hextend, after_climb n hextend'] at h
  exact (List.append_inj' h (by rw [answers_length, answers_length])).2

theorem currentCounter_climb (i : ℕ) :
    currentCounter (i * 2 ^ 14) (BitVec.ofNat 16 ((i + 1) * 2 ^ 14)) = (i + 1) * 2 ^ 14 ∨
      currentCounter (i * 2 ^ 14) (BitVec.ofNat 16 ((i + 1) * 2 ^ 14)) + 2 ^ 16 =
        (i + 1) * 2 ^ 14 := by
  unfold currentCounter
  rw [BitVec.toNat_ofNat]
  omega

/-- A step of the climb stays in the block, or leads into the next one. -/
theorem nearer_climb {i next : ℕ} (hnext : next =
      currentCounter (i * 2 ^ 14) (BitVec.ofNat 16 ((i + 1) * 2 ^ 14)) + 2 ^ 16 ∨
    (i + 1) * 2 ^ 14 ≤ next ∧
      next ≤ currentCounter (i * 2 ^ 14) (BitVec.ofNat 16 ((i + 1) * 2 ^ 14)) + 2 ^ 16) :
    nearer (i * 2 ^ 14)
      (currentOrPrevious (i * 2 ^ 14) (BitVec.ofNat 16 ((i + 1) * 2 ^ 14))) next =
        (i + 1) * 2 ^ 14 := by
  have hclimb := currentCounter_climb i
  unfold currentOrPrevious nearer absDiff
  generalize currentCounter (i * 2 ^ 14) (BitVec.ofNat 16 ((i + 1) * 2 ^ 14)) = current at *
  split_ifs <;> omega

/-- Below the end of the 64 bits the three ways to extend climb alike. -/
theorem extend_climb (i : ℕ) (hi : i < 2 ^ 50 - 1) :
    extendCapped (i * 2 ^ 14) (BitVec.ofNat 16 ((i + 1) * 2 ^ 14)) = (i + 1) * 2 ^ 14 ∧
      extendRtpReference (i * 2 ^ 14) (BitVec.ofNat 16 ((i + 1) * 2 ^ 14)) = (i + 1) * 2 ^ 14 ∧
      extendNearest64 (i * 2 ^ 14) (BitVec.ofNat 16 ((i + 1) * 2 ^ 14)) = (i + 1) * 2 ^ 14 := by
  have hclimb := currentCounter_climb i
  have hfits : (i + 1) * 2 ^ 14 ≤ u64Max := by
    unfold u64Max
    omega
  refine ⟨?_, ?_, ?_⟩
  · rw [extendCapped, nearest, nearer_climb (.inl rfl), min_eq_left hfits]
  · rw [extendRtpReference, nearer_climb]
    unfold saturatingAdd
    generalize currentCounter (i * 2 ^ 14) (BitVec.ofNat 16 ((i + 1) * 2 ^ 14)) = current at *
    omega
  · rw [extendNearest64]
    split_ifs with hnext
    · exact nearer_climb (.inl rfl)
    · -- without a next block the step stays in this one
      unfold currentOrPrevious nearer absDiff
      generalize currentCounter (i * 2 ^ 14) (BitVec.ofNat 16 ((i + 1) * 2 ^ 14)) = current at *
      split_ifs <;> omega

/-- The climb up to a window below the end, a packet six below it, one that is nearest to a
counter past the end, and one that repeats none. -/
def saturatedTrace : List (BitVec 16) := climb (2 ^ 50 - 1) ++ [65530, 25530, 65534]

/-- Near `u64::MAX` the code takes the third packet for `u64::MAX` and the last one for the
counter before it; neither model does both. -/
theorem saturated_trace_differs :
    ¬ RtpTraceMatches extendRtpReference saturatedTrace ∧
      ¬ RtpTraceMatches extendNearest64 saturatedTrace := by
  have hcode := trace_capped saturatedTrace
  constructor
  · intro h
    have hend := answers_climb (fun i hi => (extend_climb i hi).1)
      (fun i hi => (extend_climb i hi).2.1) (hcode.symm.trans h)
    revert hend
    decide +kernel
  · intro h
    have hend := answers_climb (fun i hi => (extend_climb i hi).1)
      (fun i hi => (extend_climb i hi).2.2) (hcode.symm.trans h)
    revert hend
    decide +kernel

end Csqtt.Replay
