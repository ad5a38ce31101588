/-
The UDP relay of the SOCKS5 front.

`serveSocksUDPAssociate` keeps a connection for each target of an association.  Three kinds
of goroutines share the table of targets: the loop over the client's datagrams, the sweep
of idle targets, and for each connection the pump that takes the target's answers to the
client.  The sections under the lock, the dials and the ends of the pumps come in any order,
at any times.

* `parseSocksUDP_build` — the header of an answer, read back;
* `usable_of_alive` — after each datagram the target's connection has a running pump, if no
  datagram meets an entry whose pump has ended;
* `dead_entry_stays` — such an entry stays as long as the client goes on sending.
-/
import Csqtt.ByteOrder
import Csqtt.Netip
import Csqtt.TransitionRun
import Mathlib.Logic.Function.Basic

open Transition ByteOrder

namespace Csqtt.Socks

/-! ### Datagrams -/

/-- `netip.AddrPort`. -/
structure AddrPort where
  addr : Addr
  port : BitVec 16
  deriving DecidableEq

/-- The next bytes of a packet, and the rest. -/
def readBytes (n : ℕ) (p : List Byte) : Option (Bytes n × List Byte) :=
  if h : n ≤ p.length then some (⟨p.take n, by simp [h]⟩, p.drop n) else none

def readPort (ip : Addr) : List Byte → Option (AddrPort × List Byte)
  | hi :: lo :: data => some (⟨ip, BitVec.ofNat 16 (ofBytes [hi, lo])⟩, data)
  | _ => none

/-- `parseSocksUDP`; `resolve` is `LookupHost` and `ParseAddr` of its first answer. -/
def parseSocksUDP (p : List Byte) (resolve : List Byte → Option Addr) :
    Option (AddrPort × List Byte) :=
  match p with
  | _ :: _ :: frag :: atyp :: p =>
    if frag ≠ 0 then none
    else if atyp = 1 then (readBytes 4 p).bind fun (ip, p) => readPort (.v4 ip) p
    else if atyp = 4 then (readBytes 16 p).bind fun (ip, p) => readPort (.v6 ip []) p
    else if atyp = 3 then
      match p with
      | [] => none
      | l :: p => (readBytes l.toNat p).bind fun (host, p) =>
        if p.length < 2 then none else (resolve host).bind (readPort · p)
    else none
  | _ => none

def buildSocksUDPHeader (t : AddrPort) : List Byte :=
  (match t.addr with
    | .v4 bytes => [0, 0, 0, 1] ++ bytes.val
    | .v6 bytes _ => [0, 0, 0, 4] ++ bytes.val
    | .zero => [0, 0, 0, 4] ++ List.replicate 16 0) ++ toBytes 2 t.port.toNat

theorem readBytes_append {n : ℕ} (bytes : Bytes n) (p : List Byte) :
    readBytes n (bytes.val ++ p) = some (bytes, p) := by
  have hle : n ≤ (bytes.val ++ p).length := by
    rw [List.length_append, bytes.property]
    exact Nat.le_add_right n _
  rw [readBytes, dif_pos hle]
  refine congrArg some (Prod.ext (Subtype.ext ?_) ?_)
  · exact List.take_left' bytes.property
  · exact List.drop_left' bytes.property

theorem readPort_append (ip : Addr) (port : BitVec 16) (data : List Byte) :
    readPort ip (toBytes 2 port.toNat ++ data) = some (⟨ip, port⟩, data) := by
  have hport : BitVec.ofNat 16 (ofBytes (toBytes 2 port.toNat)) = port :=
    ofBytes_toBytes_word port (by decide)
  rw [toBytes_two] at hport ⊢
  simp only [List.cons_append, List.nil_append, readPort, hport]

/-- The client reads the target of an answer as the address that it was sent from, as far as
the header can say it. -/
theorem parseSocksUDP_build (t : AddrPort) (ht : t.addr ≠ .zero) (hzone : t.addr.zone = [])
    (data : List Byte) (resolve : List Byte → Option Addr) :
    parseSocksUDP (buildSocksUDPHeader t ++ data) resolve = some (t, data) := by
  obtain ⟨addr, port⟩ := t
  cases addr with
  | zero => exact absurd rfl ht
  | v4 bytes =>
    simp [buildSocksUDPHeader, parseSocksUDP, readBytes_append, readPort_append]
  | v6 bytes zone =>
    obtain rfl : zone = [] := hzone
    simp [buildSocksUDPHeader, parseSocksUDP, readBytes_append, readPort_append]

/-! ### The association -/

/-- `socksUDPIdleTTL`, in milliseconds. -/
def socksUDPIdleTTL : ℕ := 60000

/-- `udpNatEntry`. -/
structure Entry (κ : Type*) where
  conn : κ
  last : ℕ

def Entry.idle {κ : Type*} (e : Entry κ) (now : ℕ) : Bool := socksUDPIdleTTL ≤ now - e.last

/-- The goroutine that reads from a connection. -/
inductive Pump where
  /-- The connection has not been dialled. -/
  | fresh
  | running (dst : AddrPort)
  | ended (dst : AddrPort)
  deriving DecidableEq

def Pump.target : Pump → Option AddrPort
  | .fresh => none
  | .running dst | .ended dst => some dst

/-- Where the loop over the client's datagrams is. -/
inductive Main (κ : Type*) where
  | reading
  | parsing (p : List Byte)
  | dialing (dst : AddrPort) (data : List Byte)
  | writing (dst : AddrPort) (conn : κ) (data : List Byte)
  | done

/-- An association with connections `κ` and client addresses `σ`. -/
structure Assoc (κ σ : Type*) where
  targets : AddrPort → Option (Entry κ) := fun _ => none
  clientAddr : Option σ := none
  main : Main κ := .reading
  pumps : κ → Pump := fun _ => .fresh
  closed : κ → Bool := fun _ => false
  /-- What has been written to the targets and to the client. -/
  toTargets : List (κ × List Byte) := []
  toClient : List (σ × List Byte) := []
  /-- Not in the source: the target of the datagram that has just been handled. -/
  handled : Option AddrPort := none

inductive Event (κ σ : Type*) where
  | receive (p : List Byte) (src : σ)
  /-- The datagram is parsed, and its target is looked up. -/
  | lookup (resolve : List Byte → Option Addr) (now : ℕ)
  /-- `DialUDPTarget` returns, without a connection if it has failed. -/
  | dialed (result : Option κ) (now : ℕ)
  | written (ok : Bool)
  /-- The pump reads an answer. -/
  | reply (c : κ) (data : List Byte)
  /-- The read of the pump fails. -/
  | pumpEnd (c : κ)
  | tick (now : ℕ)
  /-- The relay socket is closed. -/
  | exit

namespace Assoc

variable {κ σ : Type*} [DecidableEq κ]

/-- `sweepIdleUDPTargets`. -/
def sweepIdleUDPTargets (s : Assoc κ σ) (now : ℕ) : Assoc κ σ :=
  { s with
    targets := fun dst => (s.targets dst).filter fun e => !e.idle now
    closed := fun c => s.closed c || (s.pumps c).target.any fun dst =>
      (s.targets dst).any fun e => e.conn = c && e.idle now }

/-- The target and the payload of the datagram that is parsed. -/
def parsed (s : Assoc κ σ) (resolve : List Byte → Option Addr) : Option (AddrPort × List Byte) :=
  match s.main with
  | .parsing p => parseSocksUDP p resolve
  | .reading | .dialing _ _ | .writing _ _ _ | .done => none

/-- The connection that is written to. -/
def writingTo (s : Assoc κ σ) : Option κ :=
  match s.main with
  | .writing _ c _ => some c
  | .reading | .parsing _ | .dialing _ _ | .done => none

/-- The effect of an event. -/
def act (s : Assoc κ σ) : Event κ σ → Option (Assoc κ σ)
  | .receive p src =>
    match s.main with
    | .reading => some { s with clientAddr := s.clientAddr.or (some src), main := .parsing p }
    | _ => none
  | .lookup resolve now =>
    match s.main with
    | .parsing p =>
      match parseSocksUDP p resolve with
      | none => some { s with main := .reading }
      | some (dst, data) =>
        let s := s.sweepIdleUDPTargets now
        match s.targets dst with
        | some e => some { s with
            targets := Function.update s.targets dst (some { e with last := now })
            main := .writing dst e.conn data }
        | none => some { s with main := .dialing dst data }
    | _ => none
  | .dialed result now =>
    match s.main with
    | .dialing dst data =>
      match result with
      | none => some { s with main := .reading, handled := some dst }
      | some c =>
        if s.pumps c = .fresh then
          some { s with
            targets := Function.update s.targets dst (some ⟨c, now⟩)
            pumps := Function.update s.pumps c (.running dst)
            main := .writing dst c data }
        else none
    | _ => none
  | .written ok =>
    match s.main with
    | .writing dst c data => some { s with
        main := .reading
        toTargets := if ok then s.toTargets ++ [(c, data)] else s.toTargets
        handled := some dst }
    | _ => none
  | .reply c data =>
    match s.pumps c with
    | .running dst =>
      if s.closed c then none
      else some { s with
        toClient := s.toClient ++
          (s.clientAddr.map fun client => (client, buildSocksUDPHeader dst ++ data)).toList }
    | _ => none
  | .pumpEnd c =>
    match s.pumps c with
    | .running dst => some { s with pumps := Function.update s.pumps c (.ended dst) }
    | _ => none
  | .tick now =>
    match s.main with
    | .done => none
    | _ => some (s.sweepIdleUDPTargets now)
  | .exit =>
    match s.main with
    | .reading => some { s with
        main := .done
        targets := fun _ => none
        closed := fun c => s.closed c || (s.pumps c).target.any fun dst =>
          (s.targets dst).any fun e => e.conn = c }
    | _ => none

def step (s : Assoc κ σ) (event : Event κ σ) : Option (Assoc κ σ) :=
  { s with handled := none }.act event

/-- After a datagram to a target, its connection, if there is one, has a running pump. -/
def Usable (s : Assoc κ σ) : Prop :=
  ∀ dst ∈ s.handled, ∀ e ∈ s.targets dst, s.pumps e.conn = .running dst

/-- No datagram meets an entry whose pump has ended, unless it is idle, and no pump ends
while its datagram is being written. -/
def Alive (s : Assoc κ σ) : Event κ σ → Prop
  | .lookup resolve now => ∀ d ∈ s.parsed resolve, ∀ e ∈ s.targets d.1,
    s.pumps e.conn = .ended d.1 → e.idle now
  | .pumpEnd c => s.writingTo ≠ some c
  | .receive _ _ | .dialed _ _ | .written _ | .reply _ _ | .tick _ | .exit => True

/-! ### Runs -/

variable {s t : Assoc κ σ} {event : Event κ σ}

/-- Every entry has a pump, and the loop writes to a connection whose pump is running. -/
structure Sound (s : Assoc κ σ) : Prop where
  entries : ∀ dst e, s.targets dst = some e →
    s.pumps e.conn = .running dst ∨ s.pumps e.conn = .ended dst
  dialing : ∀ dst data, s.main = .dialing dst data → s.targets dst = none
  writing : ∀ dst c data, s.main = .writing dst c data →
    s.pumps c = .running dst ∧ ∀ e ∈ s.targets dst, e.conn = c
  usable : s.Usable

omit [DecidableEq κ] in
/-- Fewer entries, and a loop that is where it was or back at its start. -/
theorem Sound.fewer (hs : s.Sound) (hpumps : t.pumps = s.pumps)
    (htargets : ∀ dst e, t.targets dst = some e → s.targets dst = some e)
    (hmain : t.main = s.main ∨ t.main = .reading ∨ t.main = .done ∨ ∃ p, t.main = .parsing p)
    (hhandled : t.handled = none) : t.Sound where
  entries dst e he := by
    rw [hpumps]
    exact hs.entries dst e (htargets dst e he)
  dialing dst data h := by
    rcases hmain with hmain | hmain | hmain | ⟨p, hmain⟩
    · refine Option.eq_none_iff_forall_ne_some.mpr fun e he => ?_
      have hnone := hs.dialing dst data (hmain ▸ h)
      cases hnone.symm.trans (htargets dst e he)
    all_goals cases hmain.symm.trans h
  writing dst c data h := by
    rcases hmain with hmain | hmain | hmain | ⟨p, hmain⟩
    · obtain ⟨hpump, hconn⟩ := hs.writing dst c data (hmain ▸ h)
      exact ⟨hpumps ▸ hpump, fun e he => hconn e (htargets dst e he)⟩
    all_goals cases hmain.symm.trans h
  usable dst hdst := by
    rw [hhandled] at hdst
    cases hdst

theorem sweepIdleUDPTargets_sub {now : ℕ} {dst : AddrPort} {e : Entry κ}
    (h : (s.sweepIdleUDPTargets now).targets dst = some e) :
    s.targets dst = some e ∧ e.idle now = false := by
  obtain ⟨he, hidle⟩ := Option.filter_eq_some_iff.mp h
  exact ⟨he, by simpa using hidle⟩

omit [DecidableEq κ] in
/-- An entry whose pump is running: the datagram is written to its connection. -/
theorem Sound.touched (hs : s.Sound) {dst : AddrPort} {e e' : Entry κ} {data : List Byte}
    (hpumps : t.pumps = s.pumps) (htargets : t.targets = Function.update s.targets dst (some e'))
    (hconn : e'.conn = e.conn) (hmain : t.main = .writing dst e.conn data)
    (hpump : s.pumps e.conn = .running dst) (hhandled : t.handled = none) : t.Sound where
  entries d e₁ he := by
    rw [htargets] at he
    rw [hpumps]
    by_cases hd : d = dst
    · subst hd
      rw [Function.update_self] at he
      cases he
      exact .inl (hconn ▸ hpump)
    · rw [Function.update_of_ne hd] at he
      exact hs.entries d e₁ he
  dialing d data' h := by cases hmain.symm.trans h
  writing d c data' h := by
    cases hmain.symm.trans h
    refine ⟨hpumps ▸ hpump, fun e₁ he => ?_⟩
    rw [htargets, Function.update_self] at he
    cases he
    exact hconn
  usable d hd := by
    rw [hhandled] at hd
    cases hd

theorem Sound.act (hs : s.Sound) (halive : s.Alive event) (h : s.act event = some t)
    (hhandled : s.handled = none) : t.Sound := by
  cases event with
  | receive p src =>
    simp only [act] at h
    split at h
    · cases h
      exact hs.fewer rfl (fun _ _ he => he) (.inr (.inr (.inr ⟨p, rfl⟩))) hhandled
    · cases h
  | lookup resolve now =>
    simp only [act] at h
    split at h
    · next p hparsing =>
      split at h
      · cases h
        exact hs.fewer rfl (fun _ _ he => he) (.inr (.inl rfl)) hhandled
      · next dst data hparsed =>
        have hswept : (s.sweepIdleUDPTargets now).Sound :=
          hs.fewer rfl (fun _ _ he => (sweepIdleUDPTargets_sub he).1) (.inl rfl) hhandled
        split at h
        · next e he =>
          cases h
          obtain ⟨hentry, hidle⟩ := sweepIdleUDPTargets_sub he
          have hmem : (dst, data) ∈ s.parsed resolve := by
            rw [parsed, hparsing]
            exact hparsed
          -- the entry is not idle, so its pump is running
          have hpump : s.pumps e.conn = .running dst := by
            refine (hs.entries dst e hentry).resolve_right fun hended => ?_
            rw [halive _ hmem e hentry hended] at hidle
            cases hidle
          exact hswept.touched rfl rfl rfl rfl hpump hhandled
        · next hnone =>
          cases h
          refine ⟨hswept.entries, fun d data' h => ?_, fun _ _ _ h => (nomatch h), ?_⟩
          · cases h
            exact hnone
          · exact hswept.usable
    · cases h
  | dialed result now =>
    simp only [act] at h
    split at h
    · next dst data hdialing =>
      split at h
      · cases h
        refine ⟨hs.entries, fun _ _ h => (nomatch h), fun _ _ _ h => (nomatch h), fun d hd e he => ?_⟩
        cases hd
        cases (hs.dialing dst data hdialing).symm.trans he
      · next c =>
        split_ifs at h with hfresh
        cases h
        -- no entry has the new connection
        have hother : ∀ d e, s.targets d = some e → e.conn ≠ c := by
          rintro d e he rfl
          rcases hs.entries d e he with hpump | hpump
          · cases hfresh.symm.trans hpump
          · cases hfresh.symm.trans hpump
        refine ⟨fun d e he => ?_, fun _ _ h => (nomatch h), fun d c' data' h => ?_, ?_⟩
        · by_cases hd : d = dst
          · subst hd
            simp only [Function.update_self] at he
            cases he
            exact .inl (Function.update_self ..)
          · simp only [Function.update_of_ne hd] at he
            simp only [Function.update_of_ne (hother d e he)]
            exact hs.entries d e he
        · cases h
          refine ⟨Function.update_self .., fun e he => ?_⟩
          simp only [Function.update_self] at he
          cases he
          rfl
        · intro d hd
          rw [hhandled] at hd
          cases hd
    · cases h
  | written ok =>
    simp only [act] at h
    split at h
    · next dst c data hwriting =>
      cases h
      obtain ⟨hpump, hconn⟩ := hs.writing dst c data hwriting
      refine ⟨hs.entries, fun _ _ h => (nomatch h), fun _ _ _ h => (nomatch h), fun d hd e he => ?_⟩
      cases hd
      rw [hconn e he]
      exact hpump
    · cases h
  | reply c data =>
    simp only [act] at h
    split at h
    · split_ifs at h
      cases h
      exact hs.fewer rfl (fun _ _ he => he) (.inl rfl) hhandled
    · cases h
  | pumpEnd c =>
    simp only [act] at h
    split at h
    · next dst hrunning =>
      cases h
      refine ⟨fun d e he => ?_, hs.dialing, fun d c' data' h => ?_, fun d hd => ?_⟩
      · by_cases hc : e.conn = c
        · simp only [hc, Function.update_self]
          rcases hs.entries d e he with hpump | hpump
          · rw [hc, hrunning] at hpump
            cases hpump
            exact .inr rfl
          · rw [hc, hrunning] at hpump
            cases hpump
        · simp only [Function.update_of_ne hc]
          exact hs.entries d e he
      · obtain ⟨hpump, hconn⟩ := hs.writing d c' data' h
        have hc : c' ≠ c := by
          rintro rfl
          refine halive ?_
          rw [writingTo, show s.main = _ from h]
        simp only [Function.update_of_ne hc]
        exact ⟨hpump, hconn⟩
      · rw [hhandled] at hd
        cases hd
    · cases h
  | tick now =>
    simp only [act] at h
    split at h
    · cases h
    · cases h
      exact hs.fewer rfl (fun _ _ he => (sweepIdleUDPTargets_sub he).1) (.inl rfl) hhandled
  | exit =>
    simp only [act] at h
    split at h
    · cases h
      exact hs.fewer rfl (fun _ _ he => nomatch he) (.inr (.inr (.inl rfl))) hhandled
    · cases h

theorem Sound.step (hs : s.Sound) (halive : s.Alive event) (h : s.step event = some t) :
    t.Sound := by
  have hcleared : ({ s with handled := none } : Assoc κ σ).Sound :=
    hs.fewer rfl (fun _ _ he => he) (.inl rfl) rfl
  have hsame : ({ s with handled := none } : Assoc κ σ).Alive event := by
    cases event with
    | lookup | pumpEnd => exact halive
    | receive | dialed | written | reply | tick | exit => trivial
  exact hcleared.act hsame h rfl

/-- If no datagram meets an entry whose pump has ended, then after each datagram the
connection of its target, if there is one, has a running pump. -/
theorem usable_of_alive {events : List (Event κ σ)} (halive : Admits step Alive {} events) :
    Always step Usable ({} : Assoc κ σ) events := by
  have hstart : ({} : Assoc κ σ).Sound :=
    ⟨fun _ _ h => (nomatch h), fun _ _ h => (nomatch h), fun _ _ _ h => (nomatch h),
      fun _ h => (nomatch h)⟩
  exact (always_of_admits (fun _ _ _ hs halive h => hs.step halive h) hstart halive).mono
    fun _ hs => hs.usable

/-! ### An entry without a pump -/

/-- A datagram of the client, from its arrival to its write. -/
structure Datagram (σ : Type*) where
  packet : List Byte
  src : σ
  resolve : List Byte → Option Addr
  now : ℕ
  ok : Bool

def Datagram.events (d : Datagram σ) : List (Event κ σ) :=
  [.receive d.packet d.src, .lookup d.resolve d.now, .written d.ok]

/-- The datagrams come without an idle time. -/
def Frequent (last : ℕ) : List (Datagram σ) → Prop
  | [] => True
  | d :: ds => d.now - last < socksUDPIdleTTL ∧ Frequent d.now ds

/-- A datagram to an entry without a pump is written to the old connection. -/
theorem dead_entry_kept {dst : AddrPort} {e : Entry κ} {d : Datagram σ} {data : List Byte}
    (hmain : s.main = .reading) (he : s.targets dst = some e)
    (hended : s.pumps e.conn = .ended dst)
    (hparse : parseSocksUDP d.packet d.resolve = some (dst, data))
    (hlast : d.now - e.last < socksUDPIdleTTL) :
    ∃ t, run step s d.events = some t ∧ t.main = .reading ∧
      t.targets dst = some { e with last := d.now } ∧ t.pumps = s.pumps ∧ ¬ t.Usable := by
  have hidle : e.idle d.now = false := decide_eq_false (Nat.not_le.mpr hlast)
  have hswept : (s.targets dst).filter (fun e => !e.idle d.now) = some e := by
    simp [he, hidle]
  simp [Datagram.events, step, act, hmain, hparse, sweepIdleUDPTargets, hswept, Usable, hended]

/-- Such an entry stays, and with it the old connection, as long as the client goes on
sending. -/
theorem dead_entry_stays {dst : AddrPort} {ds : List (Datagram σ)}
    (hparse : ∀ d ∈ ds, ∃ data, parseSocksUDP d.packet d.resolve = some (dst, data)) {e : Entry κ}
    (hmain : s.main = .reading) (he : s.targets dst = some e)
    (hended : s.pumps e.conn = .ended dst) (hfrequent : Frequent e.last ds) :
    ∃ t, run step s (ds.flatMap Datagram.events) = some t ∧ t.main = .reading ∧
      (∃ last, t.targets dst = some { e with last }) ∧ t.pumps e.conn = .ended dst := by
  induction ds generalizing s e with
  | nil => exact ⟨s, rfl, hmain, ⟨e.last, he⟩, hended⟩
  | cons d ds ih =>
    obtain ⟨data, hd⟩ := hparse d List.mem_cons_self
    obtain ⟨s', hs', hmain', he', hpumps, _⟩ :=
      dead_entry_kept hmain he hended hd hfrequent.1
    have hended' : s'.pumps e.conn = .ended dst := by
      rw [hpumps]
      exact hended
    obtain ⟨t, ht, hkept⟩ := ih (fun d hd => hparse d (List.mem_cons_of_mem _ hd)) hmain' he'
      hended' hfrequent.2
    refine ⟨t, ?_, hkept⟩
    rw [List.flatMap_cons, run_append, hs']
    exact ht

instance Alive.decidable (s : Assoc κ σ) (event : Event κ σ) : Decidable (s.Alive event) :=
  match event with
  | .lookup resolve now => inferInstanceAs (Decidable (∀ d ∈ s.parsed resolve,
      ∀ e ∈ s.targets d.1, s.pumps e.conn = .ended d.1 → e.idle now))
  | .pumpEnd c => inferInstanceAs (Decidable (s.writingTo ≠ some c))
  | .receive _ _ | .dialed _ _ | .written _ | .reply _ _ | .tick _ | .exit => isTrue trivial

/-- A datagram to 192.0.2.1:443. -/
def hello : List Byte := [0, 0, 0, 1, 192, 0, 2, 1, 1, 187, 7]

/-- The first datagram, whose target is dialled, and the end of the pump. -/
def broken : List (Event (Fin 2) Unit) :=
  [.receive hello (), .lookup (fun _ => none) 0, .dialed (some ⟨0, Nat.two_pos⟩) 0, .written true,
    .pumpEnd ⟨0, Nat.two_pos⟩]

/-- A datagram that comes a minute later dials again. -/
theorem redialled_usable : Always step Usable ({} : Assoc (Fin 2) Unit)
    (broken ++ [.receive hello (), .lookup (fun _ => none) 60000, .dialed (some 1) 60000,
      .written true]) :=
  usable_of_alive (by decide +kernel)

/-- A datagram that comes a second later is written to the connection that has died. -/
theorem dead_target_kept : ¬ Always step Usable ({} : Assoc (Fin 2) Unit)
    (broken ++ [.receive hello (), .lookup (fun _ => none) 1000, .written true]) := by
  intro husable
  have hdead : (run step ({} : Assoc (Fin 2) Unit) (broken ++ [.receive hello (),
      .lookup (fun _ => none) 1000, .written true])).any (fun t => t.handled.any fun dst =>
        (t.targets dst).any fun e => t.pumps e.conn ≠ .running dst) = true := by
    decide +kernel
  obtain ⟨t, ht, hhandled⟩ := (Option.any_eq_true _ _).mp hdead
  obtain ⟨dst, hdst, htarget⟩ := (Option.any_eq_true _ _).mp hhandled
  obtain ⟨e, he, hpump⟩ := (Option.any_eq_true _ _).mp htarget
  exact of_decide_eq_true hpump
    (always_iff_prefixes.mp husable _ List.prefix_rfl t ht dst hdst e he)

end Assoc

end Csqtt.Socks
