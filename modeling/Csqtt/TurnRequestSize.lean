/-
The size of what `pull_control` hands out.

The caller's buffer has 1024 bytes, and a longer packet is dropped with an error.  A signed
request holds the user's name, and the realm and the nonce of the last challenge; the server
chooses these, and nothing bounds them but the length of its packet.

* `control_dequeued` — if every challenge that is taken up leaves room for the longest request,
  `pull_control` always hands out what is queued first;
* `long_nonce_dropped` — with a longer nonce the core drops its own request.
-/
import Csqtt.TurnMaintenance

namespace Csqtt.Turn

open Stun

namespace Inner

variable {P : Primitives} {env : Env} {s t : Inner} {operation : Operation} {p : Pending}
  {packet : Bytes}

/-! ### Challenges -/

/-- The realm and the nonce that `input_stun` takes over from the packet. -/
def takenUp (P : Primitives) (s : Inner) (packet : Bytes) : Option (Bytes × Bytes) :=
  match Message.decode packet with
  | .error _ => none
  | .ok m =>
    if m.class ≠ .error ∨ m.fingerprintValid P = some false then none
    else
      match s.pending.find? (·.answeredBy m) with
      | none => none
      | some p =>
        let code := (errorCode m).getD 0
        if s.unauthentic P packet p m = false ∧ (code = 401 ∨ code = 438) ∧
            p.nonceRetries < s.profile.maxNonceRetries then
          s.challenge m code
        else none

/-- The attributes of the longest request before the credentials: an Allocate to an IPv4 peer,
a ChannelBind to an IPv6 peer. -/
def longestAttributes (peer : SocketAddr) : ℕ := if peer.isIpv4 then 24 else 32

/-- With these credentials the longest request fits the buffer: the header, its attributes, the
three credentials, MESSAGE-INTEGRITY and FINGERPRINT. -/
def Roomy (peer : SocketAddr) (username realm nonce : Bytes) : Prop :=
  20 + longestAttributes peer + (4 + padded username.length) + (4 + padded realm.length) +
    (4 + padded nonce.length) + 24 + 8 ≤ 1024

instance (peer : SocketAddr) (username realm nonce : Bytes) :
    Decidable (Roomy peer username realm nonce) := inferInstanceAs (Decidable (_ ≤ _))

/-- A challenge that is taken up leaves room for the requests after it. -/
def LeavesRoom (P : Primitives) (s : Inner) (label : Env × Call) : Prop :=
  match label.2 with
  | .inputStun packet => ∀ realm nonce, s.takenUp P packet = some (realm, nonce) →
      Roomy s.peer s.username realm nonce
  | _ => True

/-- `pull_control` hands out the first packet, if there is one. -/
def Dequeues (s : Inner) : Prop :=
  (NativeCore.pullControl s).1 = .ok (s.controls.head?.map fun c => (c.packet, c.destination))

/-! ### The length of a request -/

theorem xorAddress_length (address : SocketAddr) (transaction : Octets 12) :
    (encodeXorAddress address transaction).length = if address.isIpv4 then 8 else 20 := by
  obtain ⟨ip, port⟩ := address
  cases ip with
  | v4 bits => rfl
  | v6 octets =>
    show ([0, 2] ++ _ ++ _ : Bytes).length = 20
    rw [List.length_append, (xorOctets octets (xorMask transaction)).property]
    rfl

theorem requestAttributes_le (s : Inner) (operation : Operation) (transaction : Octets 12) :
    (fields (s.requestAttributes operation transaction)).length ≤ longestAttributes s.peer := by
  have hxor := xorAddress_length s.peer transaction
  cases operation with
  | allocate =>
    simp only [requestAttributes, fields_cons, fields_nil, List.length_append, field_length,
      List.length_nil, List.length_cons, bytes32, padded, longestAttributes]
    split_ifs
    · omega
    · omega
  | refresh | deallocate =>
    simp only [requestAttributes, fields_cons, fields_nil, List.length_append, field_length,
      List.length_nil, List.length_cons, bytes32, padded, longestAttributes]
    split_ifs
    · omega
    · omega
  | permission | channel =>
    simp only [requestAttributes, fields_cons, fields_nil, List.length_append, field_length,
      List.length_nil, List.length_cons, hxor, padded, longestAttributes]
    split_ifs
    · omega
    · omega

theorem spelled_length (kind : BitVec 16) (t : Octets 12) (attrs : List (BitVec 16 × Bytes)) :
    (spelled kind t attrs).length = 20 + (fields attrs).length := by
  rw [spelled, List.length_append, header_length]
  rfl

/-- What the packets are built of is short. -/
structure Light (s : Inner) : Prop where
  controls : ∀ c ∈ s.controls, c.packet.length ≤ 1024
  pending : ∀ p ∈ s.pending, p.packet.length ≤ 1024
  room : s.key.isSome → Roomy s.peer s.username (s.realm.getD []) (s.nonce.getD [])

theorem Light.buildRequest (h : Light s) {transaction : Octets 12} {authenticated : Bool}
    (hbuild : s.buildRequest P operation transaction authenticated = .ok packet) :
    packet.length ≤ 1024 := by
  have hattributes := requestAttributes_le s operation transaction
  have hlongest : longestAttributes s.peer ≤ 32 := by
    rw [longestAttributes]
    split_ifs
    · decide
    · decide
  cases authenticated with
  | false =>
    -- without credentials no request is near the bound
    rw [buildRequest_plain] at hbuild
    split_ifs at hbuild
    rw [← Except.ok.inj hbuild, spelled_length, fingerprinted_length]
    omega
  | true =>
    cases hkey : s.key with
    | none =>
      rw [Inner.buildRequest, if_pos rfl, hkey] at hbuild
      cases hbuild
    | some key =>
      have hroom := h.room (by rw [hkey]; rfl)
      rw [buildRequest_authenticated hkey] at hbuild
      split_ifs at hbuild
      have hcredentials : (fields s.credentials).length = (4 + padded s.username.length) +
          (4 + padded (s.realm.getD []).length) + (4 + padded (s.nonce.getD []).length) := by
        simp only [credentials, fields_cons, fields_nil, List.length_append, field_length,
          List.length_nil]
        omega
      rw [← Except.ok.inj hbuild, spelled_length, fingerprinted_length, signed_length,
        fields_append, List.length_append, hcredentials]
      rw [Roomy] at hroom
      omega

/-! ### What the calls keep -/

theorem Light.congr (h : Light s) (hcontrols : ∀ c ∈ t.controls, c ∈ s.controls)
    (hpending : ∀ q ∈ t.pending, q ∈ s.pending) (hpeer : t.peer = s.peer)
    (hcredentials : t.username = s.username ∧ t.realm = s.realm ∧ t.nonce = s.nonce ∧
      t.key = s.key) : Light t := by
  obtain ⟨husername, hrealm, hnonce, hkey⟩ := hcredentials
  refine ⟨fun c hc => h.controls c (hcontrols c hc), fun q hq => h.pending q (hpending q hq), ?_⟩
  rw [hpeer, husername, hrealm, hnonce, hkey]
  exact h.room

theorem Light.events (h : Light s) (events : List NativeEvent) : Light { s with events } :=
  ⟨h.controls, h.pending, h.room⟩

theorem Light.setState (h : Light s) (state : TurnState) : Light (s.setState state) := by
  obtain ⟨events, heq⟩ := setState_eq s state
  rw [heq]
  exact ⟨h.controls, h.pending, h.room⟩

theorem Light.queuePacket (h : Light s) (hpacket : packet.length ≤ 1024) :
    Light (s.queuePacket packet) := by
  have hmem : ∀ controls : List Control, (∀ c ∈ controls, c ∈ s.controls) →
      ∀ c ∈ controls ++ [{ packet, destination := s.server }], c.packet.length ≤ 1024 := by
    intro controls hcontrols c hc
    rcases List.mem_append.mp hc with hc | hc
    · exact h.controls c (hcontrols c hc)
    · rw [List.mem_singleton.mp hc]
      exact hpacket
  rw [Inner.queuePacket]
  split_ifs
  · exact ⟨hmem _ fun c hc => List.mem_of_mem_tail hc, h.pending, h.room⟩
  · exact ⟨hmem _ fun c hc => hc, h.pending, h.room⟩

theorem Light.queueKeepalive (h : Light s) : Light s.queueKeepalive := by
  rw [Inner.queueKeepalive]
  split
  · exact h
  · refine h.queuePacket ?_
    show 8 ≤ 1024
    decide

theorem Light.dropped (h : Light s) (hcontrols : t.controls = []) (hpending : t.pending = [])
    (hpeer : t.peer = s.peer) (hcredentials : t.username = s.username ∧ t.realm = s.realm ∧
      t.nonce = s.nonce ∧ t.key = s.key) : Light t := by
  refine h.congr ?_ ?_ hpeer hcredentials
  · intro c hc
    rw [hcontrols] at hc
    exact absurd hc List.not_mem_nil
  · intro q hq
    rw [hpending] at hq
    exact absurd hq List.not_mem_nil

theorem Light.destroyAllocation (h : Light s) (operation : Operation) (status : ℤ)
    (stunCode : ℕ) : Light (s.destroyAllocation operation status stunCode) := by
  obtain ⟨events, heq⟩ := destroyAllocation_eq s operation status stunCode
  rw [heq]
  exact h.dropped rfl rfl rfl ⟨rfl, rfl, rfl, rfl⟩

theorem Light.completeFailure (h : Light s) (operation : Operation) (status : ℤ)
    (stunCode now : ℕ) : Light (s.completeFailure operation status stunCode now) := by
  have hfailed := completeFailure_failed s operation status stunCode now
  generalize s.completeFailure operation status stunCode now = t at hfailed ⊢
  cases hfailed with
  | refresh | permission | channel => exact ⟨h.controls, h.pending, h.room⟩
  | exhausted => exact h.dropped rfl rfl rfl ⟨rfl, rfl, rfl, rfl⟩
  | destroyed => exact h.destroyAllocation operation status stunCode

theorem Light.startOperation (h : Light s) (operation : Operation) (authenticated : Bool)
    (nonceRetries : ℕ) :
    Light (s.startOperation P env operation authenticated nonceRetries).2 := by
  rw [Inner.startOperation]
  split
  · next q hq =>
    -- the operation is on its way already
    show Light (ite _ _ _)
    split_ifs
    · exact h.queuePacket (h.pending q (List.mem_of_find?_eq_some hq))
    · exact h
  · split_ifs
    · exact h
    · split
      · exact h
      · next packet hbuild =>
        have hpacket := h.buildRequest hbuild
        have hqueued := h.queuePacket hpacket
        obtain ⟨controls, events, heq⟩ := queuePacket_quiet s packet
        rw [heq] at hqueued ⊢
        refine ⟨hqueued.controls, ?_, hqueued.room⟩
        intro q hq
        rcases List.mem_append.mp hq with hq | hq
        · exact h.pending q hq
        · rw [List.mem_singleton.mp hq]
          exact hpacket

theorem Light.completeSuccess (P : Primitives) (env : Env) (h : Light s) (operation : Operation)
    (m : Message) : Light (s.completeSuccess P env operation m).2 := by
  cases operation with
  | allocate =>
    rw [Inner.completeSuccess]
    split
    · exact h
    · next relay _ =>
      have hallocated : Light (s.allocated env.now relay (attributeU32 m attrLifetime)) :=
        ⟨h.controls, h.pending, h.room⟩
      simp only
      split_ifs
      · exact h
      · exact (hallocated.setState _).startOperation _ _ _
      · exact (hallocated.setState _).events _
  | refresh =>
    rw [Inner.completeSuccess]
    split_ifs
    · exact h
    · exact ⟨h.controls, h.pending, h.room⟩
  | deallocate =>
    rw [Inner.completeSuccess]
    split_ifs
    · exact h
    · refine Light.setState ?_ _
      exact ⟨h.controls, h.pending, h.room⟩
  | permission => exact ⟨h.controls, h.pending, h.room⟩
  | channel => exact ⟨h.controls, h.pending, h.room⟩

theorem Light.removed (h : Light s) {pending : List Pending}
    (hpending : ∀ q ∈ pending, q ∈ s.pending) (transaction : Octets 12) :
    Light ({ s with pending }.removeQueuedTransaction transaction) := by
  refine h.congr ?_ hpending rfl ⟨rfl, rfl, rfl, rfl⟩
  intro c hc
  exact List.mem_of_mem_filter hc

theorem Light.expireFrom (h : Light s) (now index : ℕ) : Light (s.expireFrom now index) := by
  fun_induction Inner.expireFrom s now index with
  | case1 s index hi p hlater ih => exact ih h
  | case2 s index hi p hcome hexhausted ih =>
    refine ih ?_
    have hrest : ∀ q ∈ s.pending.eraseIdx index, q ∈ s.pending :=
      fun q hq => List.mem_of_mem_eraseIdx hq
    rw [expire]
    exact (h.removed hrest p.transaction).completeFailure _ _ _ _
  | case3 s index hi p hcome hmore ih =>
    -- a retransmission queues the packet of the first time
    have hp : p.packet.length ≤ 1024 := h.pending p (List.getElem_mem hi)
    have hqueued := h.queuePacket hp
    refine ih ⟨hqueued.controls, ?_, hqueued.room⟩
    intro q hq
    rcases List.mem_or_eq_of_mem_set hq with hq | rfl
    · exact h.pending q hq
    · exact hp
  | case4 s index hi => exact h

theorem Light.pollReady (h : Light s) : Light (s.pollReady P env).2 := by
  rw [Inner.pollReady]
  refine andThen_keeps ?_ fun _ t ht => andThen_keeps ?_ fun _ u hu => andThen_keeps ?_
    fun _ v hv => ?_
  · rw [pollRefresh]
    split_ifs
    · refine Light.startOperation ?_ _ _ _
      exact ⟨h.controls, h.pending, h.room⟩
    · exact h
  · have hmaintain : Light (t.pollMaintenance env (due env.now s.maintenanceRefresh)) := by
      rw [pollMaintenance]
      split_ifs
      · exact ⟨ht.controls, ht.pending, ht.room⟩
      · exact ht
    rw [pollPermission]
    split_ifs
    · refine Light.startOperation ?_ _ _ _
      exact ⟨hmaintain.controls, hmaintain.pending, hmaintain.room⟩
    · exact hmaintain
  · rw [pollChannel]
    split_ifs
    · refine Light.startOperation ?_ _ _ _
      exact ⟨hu.controls, hu.pending, hu.room⟩
    · exact hu
  · show Light (v.pollKeepalive env)
    rw [pollKeepalive]
    split_ifs
    · refine Light.queueKeepalive ?_
      exact ⟨hv.controls, hv.pending, hv.room⟩
    · exact hv

theorem Light.poll (h : Light s) : Light (NativeCore.poll P env s).2 := by
  rw [NativeCore.poll]
  split_ifs
  · exact h
  · refine andThen_keeps ?_ fun _ t ht => ht
    have hexpiry : Light ((s.expireTransactions env.now).pollExpiry env) := by
      rw [pollExpiry]
      split_ifs
      · exact (h.expireFrom env.now 0).destroyAllocation _ _ _
      · exact h.expireFrom env.now 0
    rw [pollActive]
    split_ifs
    · exact hexpiry.pollReady
    · exact hexpiry

/-! ### Responses -/

theorem takenUp_eq {m : Message} (hdecode : Message.decode packet = .ok m)
    (hclass : m.class = .error) (hfingerprint : m.fingerprintValid P ≠ some false)
    (hfind : s.pending.find? (·.answeredBy m) = some p)
    (htrusted : s.unauthentic P packet p m = false)
    (hagain : ((errorCode m).getD 0 = 401 ∨ (errorCode m).getD 0 = 438) ∧
      p.nonceRetries < s.profile.maxNonceRetries) :
    s.takenUp P packet = s.challenge m ((errorCode m).getD 0) := by
  have hskip : ¬ (m.class ≠ .error ∨ m.fingerprintValid P = some false) := by
    rintro (hne | hforged)
    · exact hne hclass
    · exact hfingerprint hforged
  rw [takenUp, hdecode]
  simp only [if_neg hskip, hfind]
  rw [if_pos ⟨htrusted, hagain⟩]

/-- An error response that makes the core try again is one whose challenge is taken up. -/
theorem takenUp_of_retried {m : Message} {realm nonce : Bytes} {r : Outcome Unit}
    (hdecode : Message.decode packet = .ok m) (hclass : m.class = .error)
    (hfingerprint : m.fingerprintValid P ≠ some false)
    (hfind : s.pending.find? (·.answeredBy m) = some p)
    (htrusted : s.unauthentic P packet p m = false)
    (hretried : (s.withdraw m).retried P env p m ((errorCode m).getD 0) = some r)
    (hchallenge : (s.withdraw m).challenge m ((errorCode m).getD 0) = some (realm, nonce)) :
    s.takenUp P packet = some (realm, nonce) := by
  rw [Inner.retried] at hretried
  split_ifs at hretried with hagain
  rw [takenUp_eq hdecode hclass hfingerprint hfind htrusted hagain]
  exact hchallenge

theorem Light.setAuth (h : Light s) {realm nonce : Bytes}
    (hroom : Roomy s.peer s.username realm nonce) : Light (s.setAuth P realm nonce) :=
  ⟨h.controls, h.pending, fun _ => hroom⟩

theorem Light.inputError (h : Light s) (p : Pending) (m : Message)
    (hroom : ∀ r realm nonce, s.retried P env p m ((errorCode m).getD 0) = some r →
      s.challenge m ((errorCode m).getD 0) = some (realm, nonce) →
      Roomy s.peer s.username realm nonce) :
    Light (s.inputError P env p m) := by
  have hreport : ∀ (u : Inner) (status : ℤ) (stunCode reported : ℕ) (state : TurnState),
      Light u → Light ((u.reportError m status reported state).completeFailure p.operation
        resultProtocol stunCode env.now) :=
    fun u _ _ _ _ hu => (hu.events _).completeFailure _ _ _ _
  rw [Inner.inputError]
  split_ifs
  · exact hreport s _ _ _ _ h
  · exact (h.events _).destroyAllocation _ _ _
  · rcases hretried : s.retried P env p m ((errorCode m).getD 0) with _ | ⟨r, t⟩
    · exact hreport s _ _ _ _ h
    · -- the request goes out again with what the server has chosen
      obtain ⟨realm, nonce, hchallenge, hr⟩ := retried_eq_some hretried
      have hauth : Light (s.setAuth P realm nonce) :=
        h.setAuth (hroom _ realm nonce hretried hchallenge)
      have hstart : Light ((s.setAuth P realm nonce).startOperation P env p.operation true
          (p.nonceRetries + 1)).2 := hauth.startOperation _ _ _
      rw [← hr] at hstart
      rcases r with e | _
      · exact hreport t _ _ _ _ hstart
      · exact hstart

theorem Light.withdraw (h : Light s) (m : Message) : Light (s.withdraw m) :=
  h.removed (fun _ hq => List.mem_of_mem_eraseP hq) m.transaction

theorem Light.inputStun (h : Light s) (hroom : LeavesRoom P s (env, .inputStun packet)) :
    Light (NativeCore.inputStun P env s packet).2 := by
  by_cases hforged : ∃ m, Message.decode packet = .ok m ∧ m.fingerprintValid P = some false
  · obtain ⟨m, hdecode, hfingerprint⟩ := hforged
    rw [NativeCore.inputStun, hdecode]
    simp only [hfingerprint, if_true]
    split_ifs
    · exact h
    · exact h
  · rcases inputStun_cases P env s packet with heq | ⟨m, p, hdecode, hclass, hfind, heq⟩
    · rw [heq]
      exact h
    have hfingerprint : m.fingerprintValid P ≠ some false := by
      intro hfalse
      exact hforged ⟨m, hdecode, hfalse⟩
    rw [heq]
    rcases inputResponse_cases P env s packet p m with ⟨_, heq | ⟨code, heq⟩⟩ | ⟨htrusted, heq⟩
    · rw [heq]
      exact h
    · rw [heq]
      exact h.events _
    · rw [heq, inputAccepted]
      split_ifs with hplain herror
      · exact (h.withdraw m).completeFailure _ _ _ _
      · refine (h.withdraw m).inputError p m ?_
        intro r realm nonce hretried hchallenge
        exact hroom realm nonce (takenUp_of_retried hdecode herror hfingerprint hfind
          (Bool.eq_false_of_not_eq_true htrusted) hretried hchallenge)
      · have hsuccess := Light.completeSuccess P env (h.withdraw m) p.operation m
        rw [inputSuccess]
        generalize (s.withdraw m).completeSuccess P env p.operation m = r at hsuccess ⊢
        obtain ⟨e | _, t⟩ := r
        · exact hsuccess.completeFailure _ _ _ _
        · exact hsuccess

/-! ### Runs -/

theorem Light.resyncAfterSuspend (h : Light s) (gap : ℕ) :
    Light (NativeCore.resyncAfterSuspend env s gap).2 := by
  rw [NativeCore.resyncAfterSuspend]
  split_ifs
  · exact h
  · rcases s.allocationExpiresAt with _ | expires
    · exact ⟨h.controls, h.pending, h.room⟩
    · show Light (ite _ _ _ : Bool × Inner).2
      split_ifs
      · exact ⟨h.controls, h.pending, h.room⟩
      · exact h.destroyAllocation _ _ _

theorem Light.gracefulShutdown (h : Light s) :
    Light (NativeCore.gracefulShutdown P env s).2 := by
  rw [NativeCore.gracefulShutdown]
  split_ifs
  · exact h
  · show Light (ite _ _ _ : Outcome Unit).2
    split_ifs
    · refine Light.startOperation (Light.setState ?_ _) _ _ _
      exact h.dropped rfl rfl rfl ⟨rfl, rfl, rfl, rfl⟩
    · exact h.dropped rfl rfl rfl ⟨rfl, rfl, rfl, rfl⟩
    · refine h.congr ?_ (fun _ hq => hq) rfl ⟨rfl, rfl, rfl, rfl⟩
      intro c hc
      exact absurd hc List.not_mem_nil

theorem Light.pullControl (h : Light s) : Light (NativeCore.pullControl s).2 := by
  rw [NativeCore.pullControl]
  split
  · exact h
  · next control controls heq =>
    have hrest : Light { s with controls } := by
      refine h.congr ?_ (fun _ hq => hq) rfl ⟨rfl, rfl, rfl, rfl⟩
      intro c hc
      rw [heq]
      exact List.mem_cons_of_mem _ hc
    split_ifs
    · exact hrest
    · exact hrest

theorem Light.after {call : Call} (h : Light s) (hroom : LeavesRoom P s (env, call)) :
    Light (NativeCore.after P env s call) := by
  cases call with
  | startAllocation =>
    refine andThen_keeps (r := (_, s)) h fun _ t ht => ?_
    split_ifs
    · exact ht
    · exact (ht.setState _).startOperation _ _ _
  | startChannel => exact andThen_keeps (r := (_, s)) h fun _ t ht => ht.startOperation _ _ _
  | startPermission => exact andThen_keeps (r := (_, s)) h fun _ t ht => ht.startOperation _ _ _
  | inputStun packet => exact h.inputStun hroom
  | poll => exact h.poll
  | resyncAfterSuspend gap => exact h.resyncAfterSuspend gap
  | pullControl => exact h.pullControl
  | pullEvent => exact h.events _
  | gracefulShutdown => exact h.gracefulShutdown
  | forceDestroy status =>
    show Light (NativeCore.forceDestroy s status)
    rw [NativeCore.forceDestroy]
    split_ifs
    · exact h
    · refine Light.events (Light.setState ?_ _) _
      exact h.dropped rfl rfl rfl ⟨rfl, rfl, rfl, rfl⟩

theorem Light.dequeues (h : Light s) : Dequeues s := by
  rw [Dequeues, NativeCore.pullControl]
  split
  · next heq =>
    rw [heq]
    rfl
  · next control controls heq =>
    have hshort : ¬ 1024 < control.packet.length := by
      refine Nat.not_lt.mpr (h.controls control ?_)
      rw [heq]
      exact List.mem_cons_self
    rw [if_neg hshort, heq]
    rfl

/-- A packet that is too long is lost. -/
theorem pullControl_long {control : Control} {controls : List Control}
    (h : s.controls = control :: controls) (hlong : 1024 < control.packet.length) :
    (∃ e, (NativeCore.pullControl s).1 = .error e) ∧
      (NativeCore.pullControl s).2.controls = controls := by
  rw [NativeCore.pullControl, h]
  simp only [if_pos hlong, and_true]
  exact ⟨_, rfl⟩

/-- In every run of a core in which the challenges that are taken up leave room, `pull_control`
hands out the first packet of the queue at any time. -/
theorem control_dequeued {s₀ : Inner} {server peer : SocketAddr} {username password : Bytes}
    {transport : TurnControlTransport} {calls : List (Env × Call)}
    (hcreate : NativeCore.create server username password peer transport = .ok s₀)
    (hroom : Transition.Admits (NativeCore.step P) (LeavesRoom P) s₀ calls) :
    Transition.Always (NativeCore.step P) Dequeues s₀ calls := by
  -- a new core has no packets and no key
  have hfresh : Light s₀ := by
    rw [NativeCore.create] at hcreate
    split_ifs at hcreate
    rw [← Except.ok.inj hcreate]
    refine ⟨?_, ?_, ?_⟩
    · intro c hc
      exact absurd hc List.not_mem_nil
    · intro q hq
      exact absurd hq List.not_mem_nil
    · intro hkey
      exact absurd hkey (by simp)
  refine (Transition.always_of_admits ?_ hfresh hroom).mono fun s h => h.dequeues
  intro s label s' h hleaves hstep
  rw [← Option.some.inj hstep]
  exact h.after hleaves

/-! ### A long nonce -/

/-- A challenge with the realm `r` and this nonce. -/
def challengeOf (nonce : Bytes) : List (BitVec 16 × Bytes) :=
  [(attrErrorCode, [0, 0, 4, 1]), (attrRealm, [0x72]), (attrNonce, nonce)]

def challengeWith (nonce : Bytes) : Bytes :=
  spelled 0x0113 ((moment 0 0).transaction .allocate) (challengeOf nonce)

theorem challengeOf_length (nonce : Bytes) :
    (fields (challengeOf nonce)).length = 20 + padded nonce.length := by
  simp only [challengeOf, fields_cons, fields_nil, List.length_append, field_length,
    List.length_nil, List.length_cons, padded]
  omega

theorem decode_challengeWith {nonce : Bytes} (hnonce : nonce.length ≤ 4000) :
    Message.decode (challengeWith nonce)
      = .ok (messageOf 0x0113 ((moment 0 0).transaction .allocate) (challengeOf nonce)) := by
  refine decode_spelled (by decide) (by decide) ?_
  rw [challengeOf_length, padded]
  omega

/-- The core of the user `user` with a plain Allocate request on its way. -/
def allocatingCore (packet : Bytes) (controls : List Control) (events : List NativeEvent) : Inner :=
  { freshCore with
    state := .allocating
    pending := [freshCore.begun (moment 0 0) .allocate packet false 0]
    controls
    events }

section Challenged

variable (P : Primitives) (packet : Bytes) (controls : List Control) (events : List NativeEvent)
  {nonce : Bytes}

theorem challengeWith_class (nonce : Bytes) : (messageOf 0x0113
    ((moment 0 0).transaction .allocate) (challengeOf nonce)).class = .error := by
  show kindClass 0x0113 = .error
  decide

/-- The challenge answers the request on its way. -/
theorem answeredBy_challengeWith (nonce : Bytes) :
    (freshCore.begun (moment 0 0) .allocate packet false 0).answeredBy
      (messageOf 0x0113 ((moment 0 0).transaction .allocate) (challengeOf nonce)) = true := by
  have hmethod : (3 : BitVec 16) = kindMethod 0x0113 := by decide
  rw [Pending.answeredBy, Bool.and_eq_true]
  exact ⟨decide_eq_true rfl, decide_eq_true hmethod⟩

theorem find_challengeWith (nonce : Bytes) :
    (allocatingCore packet controls events).pending.find? (·.answeredBy
      (messageOf 0x0113 ((moment 0 0).transaction .allocate) (challengeOf nonce)))
        = some (freshCore.begun (moment 0 0) .allocate packet false 0) := by
  rw [allocatingCore, List.find?_cons, answeredBy_challengeWith packet nonce]

theorem takenUp_challengeWith (hnonce : nonce.length ≤ 4000) :
    (allocatingCore packet controls events).takenUp P (challengeWith nonce)
      = some ([0x72], nonce) := by
  have hfew : (0 : ℕ) < CsqttTurnProfile.pjnathCompat.maxNonceRetries := by decide
  exact takenUp_eq (decode_challengeWith hnonce) (challengeWith_class nonce) (by rintro ⟨⟩)
    (find_challengeWith packet controls events nonce) rfl ⟨.inl rfl, hfew⟩

/-- The request is made again, and nothing else is queued. -/
theorem inputStun_challengeWith (hnonce : nonce.length ≤ 4000) {again : Bytes}
    (hbuild : (freshCore.setAuth P [0x72] nonce).buildRequest P .allocate
      ((moment 0 1).transaction .allocate) true = .ok again) :
    (NativeCore.inputStun P (moment 0 1) (allocatingCore packet [] events)
      (challengeWith nonce)).2.controls
        = [{ packet := again, destination := freshCore.server }] := by
  have hfind := find_challengeWith packet [] events nonce
  rw [inputStun_answers (decode_challengeWith hnonce) (.inr (challengeWith_class nonce))
    (by rintro ⟨⟩) hfind]
  -- the request is withdrawn, and the answer makes the core begin it again
  let m := messageOf 0x0113 ((moment 0 0).transaction .allocate) (challengeOf nonce)
  let p := freshCore.begun (moment 0 0) .allocate packet false 0
  let s := (allocatingCore packet [] events).withdraw m
  have hidle : s.pending = [] := by
    show List.eraseP (·.answeredBy m) [p] = []
    rw [List.eraseP_cons, show p.answeredBy m = true from answeredBy_challengeWith packet nonce]
    rfl
  have hinput : (allocatingCore packet [] events).inputResponse P (moment 0 1) (challengeWith nonce)
      p m = (0, s.inputError P (moment 0 1) p m) := by
    have hplain : ¬ (m.class = .success ∧ ¬ p.authenticated) := by
      rw [show m.class = .error from challengeWith_class nonce]
      rintro ⟨⟨⟩, _⟩
    have htrusted : (allocatingCore packet [] events).unauthentic P (challengeWith nonce) p m
        = false := rfl
    rw [inputResponse, htrusted, if_neg Bool.false_ne_true, inputAccepted, if_neg hplain,
      if_pos (challengeWith_class nonce)]
  have hfew : p.nonceRetries < s.profile.maxNonceRetries := by
    show 0 < CsqttTurnProfile.pjnathCompat.maxNonceRetries
    decide
  have hnew : (s.setAuth P [0x72] nonce).pending.find? (·.operation = .allocate) = none := by
    rw [show (s.setAuth P [0x72] nonce).pending = [] from hidle]
    rfl
  have hbegins : (s.setAuth P [0x72] nonce).startOperation P (moment 0 1) .allocate true 1 = _ :=
    startOperation_begins hnew (fun _ => ⟨rfl, rfl, rfl⟩) hbuild
  have hchallenge : s.challenge m 401 = some ([0x72], nonce) := rfl
  have hok : ((s.setAuth P [0x72] nonce).startOperation P (moment 0 1) p.operation true
      (p.nonceRetries + 1)).1 = .ok () := congrArg Prod.fst hbegins
  rw [hinput, inputError_retry rfl (.inl rfl) hfew hchallenge hok]
  exact congrArg (fun r => r.2.controls) hbegins

end Challenged

theorem control_dequeued_handshake :
    Transition.Always (NativeCore.step zeroDigests) Dequeues freshCore
      [(moment 0 0, .startAllocation), (moment 0 1, .inputStun (challengeWith [0x6e])),
        (moment 0 1, .pullControl)] := by
  refine control_dequeued create_freshCore ?_
  obtain ⟨packet, controls, events, hstarted⟩ := handshake_started zeroDigests
  intro s hs
  refine ⟨trivial, ?_⟩
  obtain rfl : s = allocatingCore packet controls events :=
    (Option.some.inj hs).symm.trans hstarted
  intro s' hs'
  refine ⟨?_, ?_⟩
  · intro realm nonce htaken
    rw [takenUp_challengeWith zeroDigests packet controls events (by decide)] at htaken
    obtain ⟨rfl, rfl⟩ := Prod.mk.inj (Option.some.inj htaken)
    show Roomy freshCore.peer freshCore.username [0x72] [0x6e]
    decide
  · intro s'' _
    exact ⟨trivial, trivial⟩

/-- The first request is taken from the queue. -/
theorem allocating_pulled (P : Primitives) :
    ∃ packet events, Transition.run (NativeCore.step P) freshCore
      [(moment 0 0, .startAllocation), (moment 0 0, .pullControl)]
        = some (allocatingCore packet [] events) := by
  have hfits : Fits (freshCore.setState .allocating) := by
    show 4 ≤ 512 ∧ 0 ≤ 4096 ∧ 0 ≤ 4096
    decide
  have hauth : false → (freshCore.setState .allocating).AuthSet :=
    fun h => absurd h Bool.false_ne_true
  obtain ⟨packet, hbuild⟩ := hfits.buildRequest P .allocate ((moment 0 0).transaction .allocate)
    hauth
  let events := (freshCore.setState .allocating).events
  let control : Control := { packet, destination := freshCore.server }
  have hstarted : (NativeCore.startAllocation P (moment 0 0) freshCore).2
      = allocatingCore packet [control] events := by
    show ((freshCore.setState .allocating).startOperation P (moment 0 0) .allocate false 0).2 = _
    rw [startOperation_begins rfl hauth hbuild]
    rfl
  have hpulled : (NativeCore.pullControl (allocatingCore packet [control] events)).2
      = allocatingCore packet [] events := by
    rw [NativeCore.pullControl, allocatingCore]
    simp only
    split_ifs
    · rfl
    · rfl
  refine ⟨packet, events, ?_⟩
  show some (NativeCore.pullControl (NativeCore.startAllocation P (moment 0 0) freshCore).2).2 = _
  rw [hstarted, hpulled]

theorem retried_length (P : Primitives) (transaction : Octets 12) (nonce : Bytes) :
    (fields ((freshCore.setAuth P [0x72] nonce).requestAttributes .allocate transaction ++
      (freshCore.setAuth P [0x72] nonce).credentials)).length = 44 + padded nonce.length := by
  have hcredentials : (freshCore.setAuth P [0x72] nonce).credentials
      = [(attrUsername, [0x75, 0x73, 0x65, 0x72]), (attrRealm, [0x72]), (attrNonce, nonce)] := rfl
  rw [hcredentials, fields_append, List.length_append]
  simp only [requestAttributes, fields_cons, fields_nil, List.length_append, field_length,
    List.length_nil, List.length_cons, bytes32, padded]
  omega

/-- A nonce of 932 bytes, in a packet of 972. -/
def longNonce : Bytes := List.replicate 932 0x6e

theorem long_nonce_dropped :
    NativeCore.create freshCore.server freshCore.username freshCore.password freshCore.peer
        .datagram = .ok freshCore ∧
      (challengeWith longNonce).length ≤ 4096 ∧
      ∃ s, Transition.run (NativeCore.step zeroDigests) freshCore
        ([(moment 0 0, .startAllocation), (moment 0 0, .pullControl)] ++
          [(moment 0 1, .inputStun (challengeWith longNonce))]) = some s ∧
        s.controls.length = 1 ∧ (∃ e, (NativeCore.pullControl s).1 = .error e) ∧
        (NativeCore.pullControl s).2.controls = [] := by
  have hlong : longNonce.length = 932 := List.length_replicate
  let retried := freshCore.setAuth zeroDigests [0x72] longNonce
  have hcredentials : (fields (retried.requestAttributes .allocate
      ((moment 0 1).transaction .allocate) ++ retried.credentials)).length = 976 := by
    rw [retried_length, hlong]
    decide
  have hbuild : ∃ again, retried.buildRequest zeroDigests .allocate
      ((moment 0 1).transaction .allocate) true = .ok again ∧ again.length = 1028 := by
    rw [buildRequest_authenticated rfl, hcredentials, if_pos (by decide)]
    refine ⟨_, rfl, ?_⟩
    rw [spelled_length, fingerprinted_length, signed_length, hcredentials]
  obtain ⟨again, hbuild, hagain⟩ := hbuild
  obtain ⟨packet, events, hpulled⟩ := allocating_pulled zeroDigests
  have hshort : longNonce.length ≤ 4000 := by
    rw [hlong]
    decide
  -- the request that is made again is the only one in the queue, and too long for the buffer
  have hqueued := inputStun_challengeWith zeroDigests packet events hshort hbuild
  have hover : 1024 < again.length := by omega
  have hdropped := pullControl_long hqueued hover
  have hlast : ∀ s bytes, Transition.run (NativeCore.step zeroDigests) s
      [(moment 0 1, .inputStun bytes)]
        = some (NativeCore.inputStun zeroDigests (moment 0 1) s bytes).2 := fun _ _ => rfl
  refine ⟨create_freshCore, ?_, _, ?_, ?_, hdropped⟩
  · rw [challengeWith, spelled_length, challengeOf_length, hlong]
    decide
  · rw [Transition.run_append, hpulled, Option.bind_some, hlast]
  · rw [hqueued, List.length_singleton]

end Inner

end Csqtt.Turn
