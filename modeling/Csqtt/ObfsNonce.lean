/-
The nonces of one obfuscated stream.

The packet count is cut to 16 bits and the media clock to 32 bits, so a nonce
comes back when both have come round between two packets.  With at most `2 ^ 16`
calls in a tick the count cannot come round inside one, and a nonce is used again
exactly when it comes round together with the clock (`ComesRound`).

* `nonces_nodup_iff` — the nonces are different if and only if that never happens;
* `nonce_comes_back` — it does in a video stream that is silent for 13 hours.
-/
import Csqtt.Obfs

open ByteOrder

namespace Csqtt.Obfs

/-- A call of `wrap`, with what it reads off the clock and draws. -/
structure Call where
  packet : PacketBuf
  elapsed : Duration
  draws : Draws

def wraps (cipher : ObfsCipher) (config : ObfsConfig) :
    ObfsState → List Call → List (Except String Wrapped)
  | _, [] => []
  | s, c :: calls =>
    let r := wrap cipher config s c.packet c.elapsed c.draws
    r.1 :: wraps cipher config r.2 calls

/-- The nonces of the calls that succeed, in their order. -/
def nonces (cipher : ObfsCipher) (config : ObfsConfig) (s : ObfsState) (calls : List Call) :
    List Packet :=
  (wraps cipher config s calls).filterMap fun r => r.toOption.map (·.nonce)

/-- Each call with the number of calls before it that had a payload, and `n`. -/
def numbered : ℕ → List Call → List (ℕ × Call)
  | _, [] => []
  | n, c :: calls => (n, c) :: numbered (if c.packet.bytes = [] then n else n + 1) calls

/-- The ticks of the media clock at a call. -/
def Call.ticks (config : ObfsConfig) (c : Call) : ℕ :=
  c.elapsed.ticks (rtpClockRate config.payloadType)

def Call.Admitted (config : ObfsConfig) (c : Call) : Prop := Obfs.Admitted config c.packet c.draws

instance (config : ObfsConfig) (c : Call) : Decidable (c.Admitted config) :=
  inferInstanceAs (Decidable (_ ∧ _ ∧ _))

/-- Two packets that are sent, a multiple of `2 ^ 16` packets and of `2 ^ 32` ticks apart. -/
structure ComesRound (config : ObfsConfig) (p q : ℕ × Call) : Prop where
  first : p.2.Admitted config
  second : q.2.Admitted config
  sequence : 2 ^ 16 ∣ q.1 - p.1
  later : p.2.ticks config < q.2.ticks config
  clock : 2 ^ 32 ∣ q.2.ticks config - p.2.ticks config

/-! ### Two nonces -/

theorem nonce_inj {ssrc timestamp timestamp' : BitVec 32} {sequence sequence' : BitVec 16} :
    (nonce ssrc sequence timestamp).val = (nonce ssrc sequence' timestamp').val ↔
      sequence = sequence' ∧ timestamp = timestamp' := by
  refine ⟨fun h => ?_, fun ⟨h, h'⟩ => h ▸ h' ▸ rfl⟩
  obtain ⟨hfront, htimestamp⟩ := List.append_inj' h (by rw [toBytes_length, toBytes_length])
  have hsequence := List.append_cancel_left (List.append_cancel_right hfront)
  exact ⟨(toBytes_inj (by decide)).mp hsequence, (toBytes_inj (by decide)).mp htimestamp⟩

theorem nonceOf_inj {config : ObfsConfig} {s : ObfsState} {count count' : BitVec 64}
    {d e : Duration} : nonceOf config s count d = nonceOf config s count' e ↔
      ObfsConfig.initialSequence s count = ObfsConfig.initialSequence s count' ∧
        durationTicks d (rtpClockRate config.payloadType) =
          durationTicks e (rtpClockRate config.payloadType) := by
  rw [nonceOf, nonceOf]
  rcases config.mode with _ | _
  · show (nonce _ _ _).val = (nonce _ _ _).val ↔ _
    rw [nonce_inj, BitVec.add_right_inj]
  · show (nonce _ _ _).val ++ _ = (nonce _ _ _).val ++ _ ↔ _
    rw [List.append_cancel_right_eq, nonce_inj, BitVec.add_right_inj]

/-- The `m`-th and the `n`-th packet after `s` have the same nonce when both counters
agree in what the wire keeps of them. -/
theorem nonceOf_eq_iff {config : ObfsConfig} {s : ObfsState} {m n : ℕ} {d e : Duration} :
    nonceOf config s (s.count + BitVec.ofNat 64 m) d =
        nonceOf config s (s.count + BitVec.ofNat 64 n) e ↔
      m % 2 ^ 16 = n % 2 ^ 16 ∧ d.ticks (rtpClockRate config.payloadType) % 2 ^ 32 =
        e.ticks (rtpClockRate config.payloadType) % 2 ^ 32 := by
  have hsequence : ObfsConfig.initialSequence s (s.count + BitVec.ofNat 64 m) =
      ObfsConfig.initialSequence s (s.count + BitVec.ofNat 64 n) ↔ m % 2 ^ 16 = n % 2 ^ 16 := by
    rw [ObfsConfig.initialSequence, ObfsConfig.initialSequence, BitVec.add_right_inj,
      BitVec.setWidth_add _ _ (by decide), BitVec.setWidth_add _ _ (by decide),
      BitVec.add_right_inj, BitVec.setWidth_ofNat_of_le (by decide),
      BitVec.setWidth_ofNat_of_le (by decide), ← BitVec.toNat_inj, BitVec.toNat_ofNat,
      BitVec.toNat_ofNat]
  rw [nonceOf_inj, hsequence, ← BitVec.toNat_inj, durationTicks_toNat, durationTicks_toNat]

/-! ### A run -/

/-- The state after `n` packets. -/
def ObfsState.advance (s : ObfsState) (n : ℕ) : ObfsState :=
  { s with
    count := s.count + BitVec.ofNat 64 n
    transportSequence := s.transportSequence + BitVec.ofNat 16 n }

theorem ObfsState.advance_zero (s : ObfsState) : s.advance 0 = s := by
  rw [advance, BitVec.add_zero, BitVec.add_zero]

theorem ObfsState.next_advance (s : ObfsState) (n : ℕ) :
    (s.advance n).next.2 = s.advance (n + 1) := by
  rw [next, advance, advance, BitVec.ofNat_add, BitVec.ofNat_add, ← BitVec.add_assoc,
    ← BitVec.add_assoc]
  rfl

/-- The nonce of a numbered call, if it is sent. -/
def sent (config : ObfsConfig) (s : ObfsState) (p : ℕ × Call) : Option Packet :=
  if p.2.Admitted config then
    some (nonceOf config s (s.count + BitVec.ofNat 64 p.1) p.2.elapsed)
  else none

theorem nonces_eq (cipher : ObfsCipher) (config : ObfsConfig) (s : ObfsState) (n : ℕ)
    (calls : List Call) :
    nonces cipher config (s.advance n) calls = (numbered n calls).filterMap (sent config s) := by
  induction calls generalizing n with
  | nil => rfl
  | cons c calls ih =>
    have hnext : (wrap cipher config (s.advance n) c.packet c.elapsed c.draws).2 =
        s.advance (if c.packet.bytes = [] then n else n + 1) := by
      rw [wrap_state]
      split_ifs
      · rfl
      · exact s.next_advance n
    have hhead : (wrap cipher config (s.advance n) c.packet c.elapsed c.draws).1.toOption.map
        (·.nonce) = sent config s (n, c) := by
      by_cases h : c.Admitted config
      · obtain ⟨w, hw, hnonce⟩ := wrap_admitted cipher (s.advance n) c.elapsed h
        rw [hw, sent, if_pos h]
        exact congrArg some hnonce
      · rw [sent, if_neg h]
        rcases hr : (wrap cipher config (s.advance n) c.packet c.elapsed c.draws).1 with e | w
        · rfl
        · exact absurd hr (wrap_refused cipher _ _ h w)
    have hrest := ih (if c.packet.bytes = [] then n else n + 1)
    rw [nonces, wraps, List.filterMap_cons, numbered, List.filterMap_cons, hhead, hnext]
    rw [nonces] at hrest
    rw [hrest]

/-- What lies before a numbered call. -/
theorem mem_numbered {n : ℕ} {calls : List Call} {p : ℕ × Call} (h : p ∈ numbered n calls) :
    ∃ before after, calls = before ++ p.2 :: after ∧
      n ≤ p.1 ∧ p.1 ≤ n + before.length := by
  induction calls generalizing n with
  | nil => exact absurd h List.not_mem_nil
  | cons c calls ih =>
    rcases List.mem_cons.mp h with rfl | h
    · exact ⟨[], calls, rfl, Nat.le_refl _, Nat.le_refl _⟩
    · obtain ⟨before, after, rfl, hlo, hhi⟩ := ih h
      refine ⟨c :: before, after, rfl, ?_, ?_⟩
      · split at hlo <;> omega
      · rw [List.length_cons]
        split at hhi <;> omega

/-- Numbers and ticks only grow, and two packets with the same sequence number are not in
the same tick. -/
theorem numbered_apart {config : ObfsConfig} {n : ℕ} {calls : List Call}
    (hclock : calls.Pairwise fun c d => c.elapsed.nanos ≤ d.elapsed.nanos)
    (hrate : ∀ tick, calls.countP (fun c => c.ticks config = tick) ≤ 2 ^ 16) :
    (numbered n calls).Pairwise fun p q => p.1 ≤ q.1 ∧ p.2.ticks config ≤ q.2.ticks config ∧
      (p.2.packet.bytes ≠ [] → 2 ^ 16 ∣ q.1 - p.1 → p.2.ticks config < q.2.ticks config) := by
  induction calls generalizing n with
  | nil => exact List.Pairwise.nil
  | cons c calls ih =>
    obtain ⟨hhead, htail⟩ := List.pairwise_cons.mp hclock
    refine List.pairwise_cons.mpr ⟨fun q hq => ?_, ih htail fun tick =>
      ((List.sublist_cons_self c calls).countP_le).trans (hrate tick)⟩
    obtain ⟨before, after, rfl, hlo, hhi⟩ := mem_numbered hq
    have hmono : c.ticks config ≤ q.2.ticks config := Duration.ticks_mono
      (hhead q.2 (List.mem_append_right _ List.mem_cons_self)) (rtpClockRate config.payloadType)
    refine ⟨le_trans (by split <;> omega) hlo, hmono, fun hpayload hsequence => ?_⟩
    rw [if_neg hpayload] at hlo hhi
    show c.ticks config < q.2.ticks config
    by_contra hlater
    -- all the calls from the one to the other are in one tick
    let inTick : Call → Bool := fun d => d.ticks config = c.ticks config
    have hself : inTick c := decide_eq_true rfl
    have hbetween : ∀ d ∈ before, inTick d := by
      intro d hd
      have hfirst := Duration.ticks_mono (hhead d (List.mem_append_left _ hd))
        (rtpClockRate config.payloadType)
      have hlast := Duration.ticks_mono
        ((List.pairwise_append.mp htail).2.2 d hd q.2 List.mem_cons_self)
        (rtpClockRate config.payloadType)
      exact decide_eq_true (Nat.le_antisymm (hlast.trans (Nat.le_of_not_lt hlater)) hfirst)
    have hlast : inTick q.2 := decide_eq_true (Nat.le_antisymm (Nat.le_of_not_lt hlater) hmono)
    have hcount : (c :: (before ++ q.2 :: after)).countP inTick ≤ 2 ^ 16 := hrate (c.ticks config)
    rw [List.countP_cons_of_pos hself, List.countP_append, List.countP_eq_length.mpr hbetween,
      List.countP_cons_of_pos hlast] at hcount
    -- and there are too many of them
    have hsteps : 2 ^ 16 ≤ q.1 - n := Nat.le_of_dvd (Nat.sub_pos_of_lt hlo) hsequence
    omega

theorem sent_ne_iff {config : ObfsConfig} {s : ObfsState} {p q : ℕ × Call} (horder : p.1 ≤ q.1)
    (hclock : p.2.ticks config ≤ q.2.ticks config)
    (hapart : p.2.packet.bytes ≠ [] → 2 ^ 16 ∣ q.1 - p.1 → p.2.ticks config < q.2.ticks config) :
    (∀ b, sent config s p = some b → ∀ b', sent config s q = some b' → b ≠ b') ↔
      ¬ ComesRound config p q := by
  rw [sent, sent]
  refine ⟨fun h hround => ?_, fun h b hb b' hb' heq => h ?_⟩
  · rw [if_pos hround.first, if_pos hround.second] at h
    exact h _ rfl _ rfl (nonceOf_eq_iff.mpr ⟨(Nat.modEq_iff_dvd' horder).mpr hround.sequence,
      (Nat.modEq_iff_dvd' hclock).mpr hround.clock⟩)
  · have hfirst : p.2.Admitted config := by
      by_contra hp
      rw [if_neg hp] at hb
      exact nomatch hb
    have hsecond : q.2.Admitted config := by
      by_contra hq
      rw [if_neg hq] at hb'
      exact nomatch hb'
    rw [if_pos hfirst] at hb
    rw [if_pos hsecond] at hb'
    rw [← Option.some.inj hb, ← Option.some.inj hb', nonceOf_eq_iff] at heq
    have hsequence := (Nat.modEq_iff_dvd' horder).mp heq.1
    exact ⟨hfirst, hsecond, hsequence, hapart hfirst.1 hsequence,
      (Nat.modEq_iff_dvd' hclock).mp heq.2⟩

theorem nodup_iff_sent (cipher : ObfsCipher) (config : ObfsConfig) (s : ObfsState)
    (calls : List Call) : (nonces cipher config s calls).Nodup ↔ (numbered 0 calls).Pairwise
      fun p q => ∀ b, sent config s p = some b → ∀ b', sent config s q = some b' → b ≠ b' := by
  have hnonces := nonces_eq cipher config s 0 calls
  rw [s.advance_zero] at hnonces
  rw [hnonces, List.Nodup, List.pairwise_filterMap]

/-- **A nonce is used again exactly when the clock comes round with the count.** -/
theorem nonces_nodup_iff (cipher : ObfsCipher) (config : ObfsConfig) (s : ObfsState)
    (calls : List Call) (hclock : calls.Pairwise fun c d => c.elapsed.nanos ≤ d.elapsed.nanos)
    (hrate : ∀ tick, calls.countP (fun c => c.ticks config = tick) ≤ 2 ^ 16) :
    (nonces cipher config s calls).Nodup ↔
      (numbered 0 calls).Pairwise fun p q => ¬ ComesRound config p q := by
  have hapart := numbered_apart (n := 0) hclock hrate
  rw [nodup_iff_sent]
  exact ⟨hapart.imp₂ fun p q h => (sent_ne_iff h.1 h.2.1 h.2.2).mp,
    hapart.imp₂ fun p q h => (sent_ne_iff h.1 h.2.1 h.2.2).mpr⟩

/-! ### A video stream -/

/-- `ObfsConfig::new(Video)`. -/
def videoConfig : ObfsConfig where
  paddingMax := 60
  ssrc := 0x10203040
  payloadType := 96
  mode := .video

def streamStart : ObfsState where
  count := 0
  initialTimestamp := 0x11223344
  initialAbsSendTime := 0x556677
  initialSequence := 0x7788
  transportSequence := 0x99aa

/-- A packet of one byte. -/
def frameAt (elapsed : Duration) : Call where
  packet := { start := packetHeadroom, bytes := [0x45], fits := by decide }
  elapsed := elapsed
  draws := ⟨0, 1, fun _ => 0⟩

def atStart : Duration := ⟨0, 0, by decide⟩

/-- When the clock of 90 kHz has just come round. -/
def atTurn : Duration := ⟨47721, 858844445, by decide⟩

/-- Two frames, twenty milliseconds apart. -/
theorem two_frames_nodup :
    ¬ ∃ cipher : ObfsCipher, ¬ (nonces cipher videoConfig streamStart
      [frameAt atStart, frameAt ⟨0, 20000000, by decide⟩]).Nodup := by
  rintro ⟨cipher, hdup⟩
  refine hdup ((nonces_nodup_iff cipher videoConfig streamStart _ ?_ fun tick => ?_).mpr ?_)
  · exact List.pairwise_pair.mpr (by decide)
  · exact List.countP_le_length.trans (by decide)
  · refine List.pairwise_pair.mpr fun h => ?_
    exact absurd (Nat.le_of_dvd Nat.one_pos h.sequence) (by decide)

theorem mem_numbered_replicate {c d : Call} (hc : c.packet.bytes ≠ []) (n k : ℕ) :
    (n + k, d) ∈ numbered n (List.replicate k c ++ [d]) := by
  induction k generalizing n with
  | zero => exact List.mem_cons_self
  | succ k ih =>
    have hmem := ih (n + 1)
    rw [Nat.add_right_comm] at hmem
    rw [List.replicate_succ, List.cons_append, numbered, if_neg hc]
    exact List.mem_cons_of_mem _ hmem

/-- `2 ^ 16` packets in the first tick, and one when the clock comes round. -/
theorem nonce_comes_back :
    ¬ ∃ cipher : ObfsCipher, ∀ (config : ObfsConfig) (s : ObfsState) (calls : List Call),
      (calls.Pairwise fun c d => c.elapsed.nanos ≤ d.elapsed.nanos) →
      (∀ tick, calls.countP (fun c => c.ticks config = tick) ≤ 2 ^ 16) →
      (nonces cipher config s calls).Nodup := by
  rintro ⟨cipher, hclaim⟩
  have hnodup := hclaim videoConfig streamStart
    (List.replicate 65536 (frameAt atStart) ++ [frameAt atTurn]) ?_ fun tick => ?_
  · rw [nodup_iff_sent, List.replicate_succ, List.cons_append] at hnodup
    refine (List.pairwise_cons.mp hnodup).1 (1 + 65535, frameAt atTurn)
      (mem_numbered_replicate (by decide) 1 65535) _ (if_pos (by decide)) _ (if_pos (by decide)) ?_
    exact nonceOf_eq_iff.mpr (by decide)
  · refine List.pairwise_append.mpr ⟨List.pairwise_replicate.mpr (.inr (Nat.le_refl _)),
      List.pairwise_singleton _ _, fun c hc d hd => ?_⟩
    rw [List.eq_of_mem_replicate hc, List.mem_singleton.mp hd]
    decide
  · rw [List.countP_append, List.countP_replicate]
    by_cases htick : tick = 0
    · -- the last packet is in another tick
      have hlast : [frameAt atTurn].countP (fun c : Call => c.ticks videoConfig = 0) = 0 := by
        decide
      rw [htick, if_pos (by decide), hlast]
      exact Nat.le_refl _
    · have hlast := List.countP_le_length (p := fun c : Call => c.ticks videoConfig = tick)
        (l := [frameAt atTurn])
      rw [if_neg (by rw [decide_eq_true_eq]; exact Ne.symm htick)]
      exact (Nat.add_le_add_left hlast 0).trans (by decide)

end Csqtt.Obfs
