/-
At most one delivery: which runs of `authenticate_inbound` take no packet twice.

The replay window works on the counter that the sequence number is extended to,
and the extension depends on the highest counter of the moment.  A captured
packet that comes back when the highest counter has moved on by half a turn of
the sequence number is extended to another counter.

* `replayed_after_half_turn` — four packets 20000 apart, and the first one again:
  it is delivered a second time;
* `accepted_once` — no packet is delivered twice in a run in which every packet
  that comes back is recognised (`Recognised`).
-/
import Csqtt.ReplayWindow
import Csqtt.TransitionRun

open RingWindow Transition

namespace Csqtt.Replay

abbrev Wire := List (BitVec 8)

/-- The counter that `accept_rtp` hands to `accept`. -/
def ReplayWindow.counterOf (w : ReplayWindow) (sequence : BitVec 16) : ℕ :=
  match w.highest with
  | none => sequence.toNat
  | some highest => extend highest sequence

theorem ReplayWindow.acceptRtp_eq (w : ReplayWindow) (sequence : BitVec 16) :
    w.acceptRtp sequence = w.accept (w.counterOf sequence) := by
  cases h : w.highest <;> simp only [acceptRtp, counterOf, h]

theorem ReplayWindow.counterOf_eq {w : ReplayWindow} {highest : ℕ} (h : w.highest = some highest)
    (sequence : BitVec 16) : w.counterOf sequence = extend highest sequence := by
  rw [counterOf, h]

structure State where
  replay : ReplayWindow
  /-- Ghost: the packets accepted so far, each with the counter it was given. -/
  accepted : List (Wire × ℕ)

def State.init : State := ⟨ReplayWindow.default, []⟩

/-- One inbound packet. -/
def step (unwrap : Wire → Option (BitVec 16)) (s : State) (packet : Wire) : Option State :=
  let r := authenticateInbound unwrap s.replay packet
  some
    { replay := r.1
      accepted :=
        if r.2 then
          (packet, s.replay.counterOf ((unwrap packet).getD 0)) :: s.accepted
        else s.accepted }

/-- No packet was accepted twice. -/
def NoneTwice (s : State) : Prop := (s.accepted.map Prod.fst).Nodup

/-- A packet accepted under counter `c` comes back while the highest counter is
less than half a turn of the sequence number past `c`, or, any number of turns
later, at least a window but less than half a turn past it. -/
def Recognised (s : State) (packet : Wire) : Prop :=
  ∀ e ∈ s.accepted, e.1 = packet → ∀ highest ∈ s.replay.highest,
    highest - e.2 < 2 ^ 15 ∨
      windowSize ≤ (highest - e.2) % 2 ^ 16 ∧ (highest - e.2) % 2 ^ 16 < 2 ^ 15

instance (s : State) (packet : Wire) : Decidable (Recognised s packet) := by
  unfold Recognised
  infer_instance

/-! ### The counters of the accepted packets -/

/-- A counter goes with a sequence number unless it was cut off at `u64::MAX`. -/
def Matches (sequence : BitVec 16) (c : ℕ) : Prop :=
  sequence.toNat = c % 2 ^ 16 ∨ c = u64Max ∧ sequence.toNat < 2 ^ 15 - 1

theorem matches_extend (highest : ℕ) (sequence : BitVec 16) (hmax : highest ≤ u64Max) :
    Matches sequence (ReplayWindow.extend highest sequence) := by
  have := sequence.isLt
  unfold Matches ReplayWindow.extend saturatingAdd u64Max at *
  simp only
  split
  · omega
  · split <;> omega

/-- The invariant: the window stands for the counters of the accepted packets. -/
structure Tracks (unwrap : Wire → Option (BitVec 16)) (s : State) (highest : ℕ) : Prop where
  represents : s.replay.Represents { c | ∃ p, (p, c) ∈ s.accepted } highest
  le : highest ≤ u64Max
  matched : ∀ p c, (p, c) ∈ s.accepted →
    isRtpPacket p = true ∧ ∃ sequence, unwrap p = some sequence ∧ Matches sequence c

structure Sound (unwrap : Wire → Option (BitVec 16)) (s : State) : Prop where
  nodup : NoneTwice s
  tracks : s = State.init ∨ ∃ highest, Tracks unwrap s highest

/-- A recognised packet is turned down. -/
theorem Tracks.accept_again {unwrap : Wire → Option (BitVec 16)} {s : State} {highest c : ℕ}
    {sequence : BitVec 16} (h : Tracks unwrap s highest) (hc : ∃ p, (p, c) ∈ s.accepted)
    (hm : Matches sequence c)
    (hrec : highest - c < 2 ^ 15 ∨
      windowSize ≤ (highest - c) % 2 ^ 16 ∧ (highest - c) % 2 ^ 16 < 2 ^ 15) :
    (s.replay.acceptRtp sequence).2 = false := by
  have hle : c ≤ highest := h.represents.covers.le c hc
  have hmax := h.le
  rw [ReplayWindow.acceptRtp_eq, ReplayWindow.counterOf_eq h.represents.highest]
  rw [← Bool.not_eq_true, (h.represents.accept _).1]
  rintro ⟨hnew, hwindow⟩
  by_cases hnear : highest - c < 2 ^ 15
  · -- the extension finds the same counter again
    refine hnew ?_
    suffices heq : ReplayWindow.extend highest sequence = c by rwa [heq]
    rcases hm with hmod | ⟨rfl, hlow⟩
    · rw [ReplayWindow.extend_eq hmod hmax (by omega) (by omega), min_eq_left (by omega)]
    · unfold ReplayWindow.extend saturatingAdd u64Max at *
      simp only
      split <;> omega
  · obtain ⟨hfar, hhalf⟩ := hrec.resolve_left hnear
    rcases hm with hmod | ⟨rfl, -⟩
    · -- it finds a counter of an earlier turn, which is behind the window
      have hmod' : sequence.toNat = (highest - (highest - c) % 2 ^ 16) % 2 ^ 16 := by omega
      rw [ReplayWindow.extend_eq hmod' hmax (by omega) (by omega)] at hwindow
      unfold windowSize u64Max at *
      omega
    · omega

theorem Tracks.step_accepted {unwrap : Wire → Option (BitVec 16)} {s : State} {highest : ℕ}
    {packet : Wire} {sequence : BitVec 16} (h : Tracks unwrap s highest)
    (hrtp : isRtpPacket packet = true) (hseq : unwrap packet = some sequence) :
    Tracks unwrap ⟨(s.replay.acceptRtp sequence).1,
      (packet, s.replay.counterOf sequence) :: s.accepted⟩
      (max highest (ReplayWindow.extend highest sequence)) := by
  have hcounter := ReplayWindow.counterOf_eq h.represents.highest sequence
  have hext := matches_extend highest sequence h.le
  have hset : { c | ∃ p, (p, c) ∈ (packet, s.replay.counterOf sequence) :: s.accepted } =
      insert (s.replay.counterOf sequence) { c | ∃ p, (p, c) ∈ s.accepted } := by
    ext c
    simp only [Set.mem_ofPred_eq, Set.mem_insert_iff, List.mem_cons, Prod.mk.injEq]
    constructor
    · rintro ⟨p, ⟨-, rfl⟩ | hp⟩
      · exact .inl rfl
      · exact .inr ⟨p, hp⟩
    · rintro (rfl | ⟨p, hp⟩)
      · exact ⟨packet, .inl ⟨rfl, rfl⟩⟩
      · exact ⟨p, .inr hp⟩
  refine ⟨?_, max_le h.le (ReplayWindow.extend_le highest sequence h.le), ?_⟩
  · rw [hset, ReplayWindow.acceptRtp_eq, hcounter]
    exact (h.represents.accept _).2
  · rintro p c (_ | ⟨_, hp⟩)
    · exact ⟨hrtp, sequence, hseq, hcounter ▸ hext⟩
    · exact h.matched p c hp

theorem tracks_first {unwrap : Wire → Option (BitVec 16)} {packet : Wire} {sequence : BitVec 16}
    (hrtp : isRtpPacket packet = true) (hseq : unwrap packet = some sequence) :
    Tracks unwrap ⟨(State.init.replay.acceptRtp sequence).1,
      [(packet, State.init.replay.counterOf sequence)]⟩ sequence.toNat := by
  have hlt := sequence.isLt
  have hset : { c | ∃ p, (p, c) ∈ [(packet, State.init.replay.counterOf sequence)] } =
      {sequence.toNat} := by
    ext c
    constructor
    · rintro ⟨p, hp⟩
      exact (Prod.mk.inj (List.mem_singleton.mp hp)).2
    · rintro rfl
      exact ⟨packet, .head _⟩
  refine ⟨?_, by unfold u64Max; omega, ?_⟩
  · rw [hset]
    exact (ReplayWindow.accept_first rfl (ReplayWindow.flag_blank none) _).2
  · rintro p c hp
    obtain ⟨rfl, rfl⟩ := Prod.mk.inj (List.mem_singleton.mp hp)
    exact ⟨hrtp, sequence, hseq, .inl (Nat.mod_eq_of_lt hlt).symm⟩

/-! ### Runs -/

theorem Sound.step {unwrap : Wire → Option (BitVec 16)} {s s' : State} {packet : Wire}
    (h : Sound unwrap s) (hok : Recognised s packet) (hs' : step unwrap s packet = some s') :
    Sound unwrap s' := by
  obtain rfl := Option.some_inj.mp hs'
  unfold authenticateInbound
  by_cases hrtp : isRtpPacket packet = true
  case neg =>
    simp only [if_neg hrtp]
    exact h
  simp only [if_pos hrtp]
  cases hseq : unwrap packet with
  | none => exact h
  | some sequence =>
    simp only [Option.getD_some]
    cases hans : (s.replay.acceptRtp sequence).2 with
    | false =>
      have hsame : (s.replay.acceptRtp sequence).1 = s.replay := by
        rw [ReplayWindow.acceptRtp_eq] at hans ⊢
        exact ReplayWindow.accept_of_eq_false hans
      simp only [hsame]
      exact h
    | true =>
      rcases h.tracks with rfl | ⟨highest, ht⟩
      · exact ⟨List.nodup_cons.mpr ⟨nofun, .nil⟩, .inr ⟨_, tracks_first hrtp hseq⟩⟩
      · refine ⟨List.nodup_cons.mpr ⟨fun hmem => ?_, h.nodup⟩,
          .inr ⟨_, ht.step_accepted hrtp hseq⟩⟩
        -- the packet was accepted before, so it is recognised now
        obtain ⟨⟨p, c⟩, he, rfl⟩ := List.mem_map.mp hmem
        obtain ⟨-, sequence', hseq', hm⟩ := ht.matched _ c he
        obtain rfl := Option.some_inj.mp (hseq.symm.trans hseq')
        rw [ht.accept_again ⟨_, he⟩ hm (hok _ he rfl highest ht.represents.highest)] at hans
        cases hans

/-- No packet is delivered twice in a run in which all that come back are
recognised. -/
theorem accepted_once (unwrap : Wire → Option (BitVec 16)) (packets : List Wire)
    (h : Admits (step unwrap) Recognised State.init packets) :
    Always (step unwrap) NoneTwice State.init packets :=
  have hinit : Sound unwrap State.init := ⟨.nil, .inl rfl⟩
  (always_of_admits (fun _ _ _ hs hok hstep => hs.step hok hstep) hinit h).mono
    fun _ hs => hs.nodup

/-- The sequence number in the RTP header, which is what `unwrap` returns for a
packet that authenticates. -/
def headerSequence : Wire → Option (BitVec 16)
  | _ :: _ :: high :: low :: _ => some (high ++ low)
  | _ => none

/-- An RTP packet with this sequence number. -/
def rtp (sequence : BitVec 16) : Wire :=
  [0x80, 96, sequence.extractLsb' 8 8, sequence.extractLsb' 0 8] ++ List.replicate 20 0

theorem accepted_once_near :
    Always (step headerSequence) NoneTwice State.init [rtp 65535, rtp 1, rtp 65535, rtp 0] :=
  accepted_once headerSequence [rtp 65535, rtp 1, rtp 65535, rtp 0] (by decide +kernel)

/-- The highest counter moves on by 60000, and the first packet comes again. -/
theorem replayed_after_half_turn :
    ∃ s, run (step headerSequence) State.init
        [rtp 0, rtp 20000, rtp 40000, rtp 60000, rtp 0] = some s ∧ ¬ NoneTwice s := by
  have hrun : (run (step headerSequence) State.init
      [rtp 0, rtp 20000, rtp 40000, rtp 60000, rtp 0]).map State.accepted =
        some [(rtp 0, 65536), (rtp 60000, 60000), (rtp 40000, 40000), (rtp 20000, 20000),
          (rtp 0, 0)] := by
    decide +kernel
  obtain ⟨s, hs, hacc⟩ := Option.map_eq_some_iff.mp hrun
  refine ⟨s, hs, ?_⟩
  rw [NoneTwice, hacc]
  decide

end Csqtt.Replay
