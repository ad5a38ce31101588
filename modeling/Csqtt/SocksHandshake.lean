/-
The SOCKS5 handshake: greeting, user and password, request.

The client's bytes arrive in pieces; the handshake reads them through a buffer.

* `accepted_iff` — it accepts exactly the streams that begin with a greeting, the configured
  credentials and a request, and consumes exactly these bytes, however they arrive;
* `handshake_exact_iff` — an accepted request has a host if and only if a domain was sent, and
  an address otherwise, unless the domain that was sent is empty.
-/
import Csqtt.ByteReader
import Csqtt.UdpAssociate

open ByteOrder

namespace Csqtt.Socks

/-- `socksCmdConnect`. -/
def socksCmdConnect : Byte := 0x01

/-- `socksCmdUDPAssociate`. -/
def socksCmdUDPAssociate : Byte := 0x03

def socksRep (rep : Byte) : List Byte := [0x05, rep, 0x00, 0x01, 0, 0, 0, 0, 0, 0]

abbrev Reader := ByteReader Byte

def socksReadLP (br : Reader) : Option (List Byte × Reader) :=
  br.readByte.bind fun (n, br) => br.readFull n.toNat

structure SocksRequest where
  cmd : Byte
  host : List Byte
  ip : Addr
  port : BitVec 16
  deriving DecidableEq

def SocksRequest.isIP (r : SocksRequest) : Bool := r.host = []

/-- The greeting: its version, and the methods, which are read over. -/
def readGreeting (br : Reader) : Option Reader :=
  br.readByte.bind fun (version, br) =>
    if version ≠ 0x05 then none
    else br.readByte.bind fun (nm, br) => (br.readFull nm.toNat).map Prod.snd

/-- The version of the sub-negotiation, the user and the password. -/
def readCredentials (br : Reader) : Option (List Byte × List Byte × Reader) :=
  br.readByte.bind fun (version, br) =>
    if version ≠ 0x01 then none
    else (socksReadLP br).bind fun (user, br) => (socksReadLP br).map fun (pass, br) => (user, pass, br)

/-- `DST.ADDR`: the host and the address, or the answer to a type that is not supported. -/
def readAddress (atyp : Byte) (br : Reader) : Except (Option (List Byte)) (List Byte × Addr × Reader) :=
  let read (r : Option (List Byte × Addr × Reader)) : Except (Option (List Byte)) _ :=
    match r with
    | none => .error none
    | some r => .ok r
  if atyp = 0x01 then read ((br.readFull 4).map fun (b, br) => ([], addrFromSlice b, br))
  else if atyp = 0x03 then read ((socksReadLP br).map fun (b, br) => (b, .zero, br))
  else if atyp = 0x04 then read ((br.readFull 16).map fun (b, br) => ([], addrFromSlice b, br))
  else .error (some (socksRep 0x08))

/-- The request, or the answer to one that is not supported. -/
def readRequest (br : Reader) : Except (Option (List Byte)) (SocksRequest × Reader) :=
  match br.readFull 4 with
  | none => .error none
  | some (hdr, br) =>
    let cmd := hdr.getD 1 0
    if hdr.getD 0 0 ≠ 0x05 ∨ (cmd ≠ socksCmdConnect ∧ cmd ≠ socksCmdUDPAssociate) then
      .error (some (socksRep 0x07))
    else
      match readAddress (hdr.getD 3 0) br with
      | .error reply => .error reply
      | .ok (host, ip, br) =>
        match br.readFull 2 with
        | none => .error none
        | some (pp, br) => .ok (⟨cmd, host, ip, BitVec.ofNat 16 (ofBytes pp)⟩, br)

/-- What the handshake has written, and the request with what follows it. -/
structure Handshake where
  replies : List (List Byte)
  accepted : Option (SocksRequest × Reader)

/-- `socksHandshake`; `writes` says which answers can be written. -/
def socksHandshake (writes : List Byte → Bool) (br : Reader) (user pass : List Byte) : Handshake :=
  match readGreeting br with
  | none => ⟨[], none⟩
  | some br =>
    if !writes [0x05, 0x02] then ⟨[[0x05, 0x02]], none⟩
    else
      match readCredentials br with
      | none => ⟨[[0x05, 0x02]], none⟩
      | some (gu, gp, br) =>
        if gu ≠ user ∨ gp ≠ pass then ⟨[[0x05, 0x02], [0x01, 0x01]], none⟩
        else if !writes [0x01, 0x00] then ⟨[[0x05, 0x02], [0x01, 0x00]], none⟩
        else
          match readRequest br with
          | .error reply => ⟨[[0x05, 0x02], [0x01, 0x00]] ++ reply.toList, none⟩
          | .ok accepted => ⟨[[0x05, 0x02], [0x01, 0x00]], some accepted⟩

/-! ### The grammar -/

/-- A field with its length in front. -/
def lengthPrefixed (field : List Byte) : List Byte := BitVec.ofNat 8 field.length :: field

/-- `DST.ADDR`. -/
inductive Dest where
  | v4 (bytes : Bytes 4)
  | domain (name : List Byte)
  | v6 (bytes : Bytes 16)
  deriving DecidableEq

namespace Dest

def atyp : Dest → Byte
  | v4 _ => 0x01
  | domain _ => 0x03
  | v6 _ => 0x04

def bytes : Dest → List Byte
  | v4 bytes => bytes.val
  | domain name => lengthPrefixed name
  | v6 bytes => bytes.val

def host : Dest → List Byte
  | domain name => name
  | v4 _ | v6 _ => []

def ip : Dest → Addr
  | v4 bytes => .v4 bytes
  | domain _ => .zero
  | v6 bytes => .v6 bytes []

end Dest

/-- What a client says before its data. -/
structure ClientHello where
  methods : List Byte
  user : List Byte
  pass : List Byte
  cmd : Byte
  rsv : Byte
  dest : Dest
  port : BitVec 16
  deriving DecidableEq

namespace ClientHello

def greeting (h : ClientHello) : List Byte := 0x05 :: lengthPrefixed h.methods

def credentials (h : ClientHello) : List Byte :=
  0x01 :: (lengthPrefixed h.user ++ lengthPrefixed h.pass)

def request (h : ClientHello) : List Byte :=
  [0x05, h.cmd, h.rsv, h.dest.atyp] ++ (h.dest.bytes ++ toBytes 2 h.port.toNat)

def bytes (h : ClientHello) : List Byte := h.greeting ++ (h.credentials ++ h.request)

/-- Every field fits its length byte, and the command is one of the two. -/
structure WellFormed (h : ClientHello) : Prop where
  methods : h.methods.length < 256
  user : h.user.length < 256
  pass : h.pass.length < 256
  host : h.dest.host.length < 256
  cmd : h.cmd = socksCmdConnect ∨ h.cmd = socksCmdUDPAssociate

/-- What was asked for. -/
def asked (h : ClientHello) : SocksRequest := ⟨h.cmd, h.dest.host, h.dest.ip, h.port⟩

end ClientHello

/-! ### One field after the other -/

variable {br br' : Reader} {rest : List Byte}

theorem socksReadLP_sound {field : List Byte} (h : socksReadLP br = some (field, br')) :
    field.length < 256 ∧ br.bytes = lengthPrefixed field ++ br'.bytes := by
  obtain ⟨⟨n, br₁⟩, hbyte, hfull⟩ := Option.bind_eq_some_iff.mp h
  obtain ⟨hlength, hbytes⟩ := ByteReader.readFull_sound hfull
  have hn : BitVec.ofNat 8 field.length = n := by rw [hlength, BitVec.ofNat_toNat, BitVec.setWidth_eq]
  refine ⟨hlength ▸ n.isLt, ?_⟩
  rw [ByteReader.readByte_sound hbyte, hbytes, lengthPrefixed, hn]
  rfl

theorem socksReadLP_complete {field : List Byte} (hlength : field.length < 256)
    (h : br.bytes = lengthPrefixed field ++ rest) :
    ∃ br', socksReadLP br = some (field, br') ∧ br'.bytes = rest := by
  obtain ⟨br₁, hbyte, hbytes⟩ := ByteReader.readByte_complete h
  obtain ⟨br₂, hfull, hrest⟩ := ByteReader.readFull_complete hbytes
  have hn : (BitVec.ofNat 8 field.length).toNat = field.length := by
    rw [BitVec.toNat_ofNat, Nat.mod_eq_of_lt hlength]
  refine ⟨br₂, ?_, hrest⟩
  simp only [socksReadLP, hbyte, Option.bind_some, hn, hfull]

theorem readGreeting_sound (h : readGreeting br = some br') :
    ∃ methods : List Byte, methods.length < 256 ∧
      br.bytes = 0x05 :: lengthPrefixed methods ++ br'.bytes := by
  obtain ⟨⟨version, br₁⟩, hversion, h⟩ := Option.bind_eq_some_iff.mp h
  dsimp only at h
  split_ifs at h with hbad
  rw [not_not] at hbad
  subst hbad
  obtain ⟨⟨nm, br₂⟩, hnm, h⟩ := Option.bind_eq_some_iff.mp h
  obtain ⟨⟨methods, br₃⟩, hfull, rfl⟩ := Option.map_eq_some_iff.mp h
  have hfield : socksReadLP br₁ = some (methods, br₃) := by
    simp only [socksReadLP, hnm, Option.bind_some, hfull]
  obtain ⟨hlength, hbytes⟩ := socksReadLP_sound hfield
  refine ⟨methods, hlength, ?_⟩
  rw [ByteReader.readByte_sound hversion, hbytes]
  rfl

theorem readGreeting_complete {methods : List Byte} (hlength : methods.length < 256)
    (h : br.bytes = 0x05 :: lengthPrefixed methods ++ rest) :
    ∃ br', readGreeting br = some br' ∧ br'.bytes = rest := by
  obtain ⟨br₁, hversion, hbytes⟩ := ByteReader.readByte_complete h
  obtain ⟨br₂, hfield, hrest⟩ := socksReadLP_complete hlength hbytes
  obtain ⟨⟨nm, br₃⟩, hnm, hfull⟩ := Option.bind_eq_some_iff.mp hfield
  refine ⟨br₂, ?_, hrest⟩
  simp only [readGreeting, hversion, Option.bind_some, ne_eq, not_true_eq_false, if_false, hnm,
    hfull, Option.map_some]

theorem readCredentials_sound {user pass : List Byte}
    (h : readCredentials br = some (user, pass, br')) :
    user.length < 256 ∧ pass.length < 256 ∧
      br.bytes = 0x01 :: (lengthPrefixed user ++ lengthPrefixed pass) ++ br'.bytes := by
  obtain ⟨⟨version, br₁⟩, hversion, h⟩ := Option.bind_eq_some_iff.mp h
  dsimp only at h
  split_ifs at h with hbad
  rw [not_not] at hbad
  subst hbad
  obtain ⟨⟨u, br₂⟩, huser, h⟩ := Option.bind_eq_some_iff.mp h
  obtain ⟨⟨p, br₃⟩, hpass, heq⟩ := Option.map_eq_some_iff.mp h
  cases heq
  obtain ⟨hulength, hubytes⟩ := socksReadLP_sound huser
  obtain ⟨hplength, hpbytes⟩ := socksReadLP_sound hpass
  refine ⟨hulength, hplength, ?_⟩
  rw [ByteReader.readByte_sound hversion, hubytes, hpbytes, List.cons_append, List.append_assoc]

theorem readCredentials_complete {user pass : List Byte} (huser : user.length < 256)
    (hpass : pass.length < 256)
    (h : br.bytes = 0x01 :: (lengthPrefixed user ++ lengthPrefixed pass) ++ rest) :
    ∃ br', readCredentials br = some (user, pass, br') ∧ br'.bytes = rest := by
  obtain ⟨br₁, hversion, hbytes⟩ := ByteReader.readByte_complete h
  rw [List.append_eq, List.append_assoc] at hbytes
  obtain ⟨br₂, hu, hbytes⟩ := socksReadLP_complete huser hbytes
  obtain ⟨br₃, hp, hrest⟩ := socksReadLP_complete hpass hbytes
  refine ⟨br₃, ?_, hrest⟩
  simp only [readCredentials, hversion, Option.bind_some, ne_eq, not_true_eq_false, if_false, hu,
    hp, Option.map_some]

theorem readAddress_sound {atyp : Byte} {host : List Byte} {ip : Addr}
    (h : readAddress atyp br = .ok (host, ip, br')) :
    ∃ dest : Dest, dest.atyp = atyp ∧ dest.host = host ∧ dest.ip = ip ∧ host.length < 256 ∧
      br.bytes = dest.bytes ++ br'.bytes := by
  rw [readAddress] at h
  dsimp only at h
  split_ifs at h with hv4 hdomain hv6
  · cases hfull : br.readFull 4 with
    | none => simp [hfull] at h
    | some got =>
      obtain ⟨b, br₁⟩ := got
      obtain ⟨hlength, hbytes⟩ := ByteReader.readFull_sound hfull
      simp only [hfull, Option.map_some, Except.ok.injEq, Prod.mk.injEq] at h
      obtain ⟨rfl, rfl, rfl⟩ := h
      exact ⟨.v4 ⟨b, hlength⟩, hv4.symm, rfl, (addrFromSlice_v4 ⟨b, hlength⟩).symm,
        Nat.zero_lt_of_lt (by decide : 0 < 256), hbytes⟩
  · cases hfield : socksReadLP br with
    | none => simp [hfield] at h
    | some got =>
      obtain ⟨b, br₁⟩ := got
      obtain ⟨hlength, hbytes⟩ := socksReadLP_sound hfield
      simp only [hfield, Option.map_some, Except.ok.injEq, Prod.mk.injEq] at h
      obtain ⟨rfl, rfl, rfl⟩ := h
      exact ⟨.domain b, hdomain.symm, rfl, rfl, hlength, hbytes⟩
  · cases hfull : br.readFull 16 with
    | none => simp [hfull] at h
    | some got =>
      obtain ⟨b, br₁⟩ := got
      obtain ⟨hlength, hbytes⟩ := ByteReader.readFull_sound hfull
      simp only [hfull, Option.map_some, Except.ok.injEq, Prod.mk.injEq] at h
      obtain ⟨rfl, rfl, rfl⟩ := h
      exact ⟨.v6 ⟨b, hlength⟩, hv6.symm, rfl, (addrFromSlice_v6 ⟨b, hlength⟩).symm,
        Nat.zero_lt_of_lt (by decide : 0 < 256), hbytes⟩

theorem readAddress_complete {dest : Dest} (hhost : dest.host.length < 256)
    (h : br.bytes = dest.bytes ++ rest) :
    ∃ br', readAddress dest.atyp br = .ok (dest.host, dest.ip, br') ∧ br'.bytes = rest := by
  cases dest with
  | v4 bytes =>
    obtain ⟨br₁, hfull, hrest⟩ := ByteReader.readFull_complete h
    have hlength : (Dest.v4 bytes).bytes.length = 4 := bytes.property
    rw [hlength] at hfull
    refine ⟨br₁, ?_, hrest⟩
    have hip : addrFromSlice (Dest.v4 bytes).bytes = .v4 bytes := addrFromSlice_v4 bytes
    simp [readAddress, Dest.atyp, Dest.host, Dest.ip, hfull, hip]
  | domain name =>
    obtain ⟨br₁, hfield, hrest⟩ := socksReadLP_complete hhost h
    refine ⟨br₁, ?_, hrest⟩
    have hfield' : socksReadLP br = some (name, br₁) := hfield
    simp [readAddress, Dest.atyp, Dest.host, Dest.ip, hfield']
  | v6 bytes =>
    obtain ⟨br₁, hfull, hrest⟩ := ByteReader.readFull_complete h
    have hlength : (Dest.v6 bytes).bytes.length = 16 := bytes.property
    rw [hlength] at hfull
    refine ⟨br₁, ?_, hrest⟩
    have hip : addrFromSlice (Dest.v6 bytes).bytes = .v6 bytes [] := addrFromSlice_v6 bytes
    simp [readAddress, Dest.atyp, Dest.host, Dest.ip, hfull, hip]

theorem toBytes_port {pp : List Byte} (h : pp.length = 2) :
    toBytes 2 (BitVec.ofNat 16 (ofBytes pp)).toNat = pp := by
  obtain ⟨hi, lo, rfl⟩ := List.length_eq_two.mp h
  have hhi := hi.isLt
  have hlo := lo.isLt
  have hport : (BitVec.ofNat 16 (ofBytes [hi, lo])).toNat = hi.toNat * 256 + lo.toNat := by
    rw [BitVec.toNat_ofNat, ofBytes]
    simp only [List.foldl_cons, List.foldl_nil]
    omega
  rw [hport, toBytes_two]
  congr 2
  · apply BitVec.eq_of_toNat_eq
    rw [BitVec.toNat_ofNat]
    omega
  · apply BitVec.eq_of_toNat_eq
    rw [BitVec.toNat_ofNat]
    omega

theorem readRequest_sound {req : SocksRequest} (h : readRequest br = .ok (req, br')) :
    ∃ (rsv : Byte) (dest : Dest),
      (req.cmd = socksCmdConnect ∨ req.cmd = socksCmdUDPAssociate) ∧ dest.host.length < 256 ∧
        req = ⟨req.cmd, dest.host, dest.ip, req.port⟩ ∧
        br.bytes = [0x05, req.cmd, rsv, dest.atyp] ++ (dest.bytes ++ toBytes 2 req.port.toNat) ++
          br'.bytes := by
  rw [readRequest] at h
  cases hhdr : br.readFull 4 with
  | none => simp [hhdr] at h
  | some got =>
    obtain ⟨hdr, br₁⟩ := got
    obtain ⟨hlength, hbytes⟩ := ByteReader.readFull_sound hhdr
    obtain ⟨version, cmd, rsv, atyp, rfl⟩ : ∃ a b c d, hdr = [a, b, c, d] := by
      match hdr, hlength with
      | [a, b, c, d], _ => exact ⟨a, b, c, d, rfl⟩
    simp only [hhdr, List.getD_cons_zero, List.getD_cons_succ] at h
    split_ifs at h with hbad
    rw [not_or, not_not, not_and_or, not_not, not_not] at hbad
    obtain ⟨rfl, hcmd⟩ := hbad
    cases haddress : readAddress atyp br₁ with
    | error reply => simp [haddress] at h
    | ok got =>
      obtain ⟨host, ip, br₂⟩ := got
      obtain ⟨dest, rfl, rfl, rfl, hhost, hdest⟩ := readAddress_sound haddress
      cases hport : br₂.readFull 2 with
      | none => simp [haddress, hport] at h
      | some got =>
        obtain ⟨pp, br₃⟩ := got
        obtain ⟨hplength, hpbytes⟩ := ByteReader.readFull_sound hport
        simp only [haddress, hport, Except.ok.injEq, Prod.mk.injEq] at h
        obtain ⟨rfl, rfl⟩ := h
        refine ⟨rsv, dest, hcmd, hhost, rfl, ?_⟩
        rw [hbytes, hdest, hpbytes, toBytes_port hplength, List.append_assoc, List.append_assoc]

theorem readRequest_complete {h : ClientHello} (hform : h.WellFormed)
    (hbytes : br.bytes = h.request ++ rest) :
    ∃ br', readRequest br = .ok (h.asked, br') ∧ br'.bytes = rest := by
  rw [ClientHello.request, List.append_assoc, List.append_assoc] at hbytes
  obtain ⟨br₁, hhdr, hbytes⟩ := ByteReader.readFull_complete hbytes
  obtain ⟨br₂, haddress, hbytes⟩ := readAddress_complete hform.host hbytes
  obtain ⟨br₃, hport, hrest⟩ := ByteReader.readFull_complete hbytes
  rw [toBytes_length] at hport
  have hword : BitVec.ofNat 16 (ofBytes (toBytes 2 h.port.toNat)) = h.port :=
    ofBytes_toBytes_word h.port (by decide)
  have hok : ¬ ((0x05 : Byte) ≠ 0x05 ∨ h.cmd ≠ socksCmdConnect ∧ h.cmd ≠ socksCmdUDPAssociate) := by
    rw [not_or, not_not, not_and_or, not_not, not_not]
    exact ⟨rfl, hform.cmd⟩
  refine ⟨br₃, ?_, hrest⟩
  rw [readRequest, show br.readFull 4 = some _ from hhdr]
  simp only [List.getD_cons_zero, List.getD_cons_succ, if_neg hok, haddress, hport, hword]
  rfl

/-! ### The handshake -/

section Handshake

variable {writes : List Byte → Bool} {user pass : List Byte}

/-- The two answers that a handshake needs can be written. -/
def Writable (writes : List Byte → Bool) : Prop :=
  writes [0x05, 0x02] = true ∧ writes [0x01, 0x00] = true

/-- **What is accepted**: with answers that can be written, exactly the streams that begin with
a greeting, the configured credentials and a request, of which exactly these bytes are
consumed, in whatever pieces they arrive. -/
theorem accepted_iff (br : Reader) (req : SocksRequest) (rest : List Byte) :
    (∃ br', (socksHandshake writes br user pass).accepted = some (req, br') ∧ br'.bytes = rest) ↔
      Writable writes ∧ ∃ h : ClientHello, h.WellFormed ∧ h.user = user ∧ h.pass = pass ∧
        h.asked = req ∧ br.bytes = h.bytes ++ rest := by
  constructor
  · rintro ⟨br', haccepted, rfl⟩
    rw [socksHandshake] at haccepted
    cases hgreeting : readGreeting br with
    | none => simp [hgreeting] at haccepted
    | some br₁ =>
      cases hcredentials : readCredentials br₁ with
      | none =>
        simp only [hgreeting, hcredentials] at haccepted
        split_ifs at haccepted
      | some got =>
        obtain ⟨gu, gp, br₂⟩ := got
        simp only [hgreeting, hcredentials] at haccepted
        split_ifs at haccepted with hfirst hwrong hsecond
        rw [not_or, not_not, not_not] at hwrong
        obtain ⟨rfl, rfl⟩ := hwrong
        cases hrequest : readRequest br₂ with
        | error reply => simp [hrequest] at haccepted
        | ok got =>
          simp only [hrequest, Option.some.injEq] at haccepted
          subst haccepted
          obtain ⟨methods, hmethods, hgbytes⟩ := readGreeting_sound hgreeting
          obtain ⟨huser, hpass, hcbytes⟩ := readCredentials_sound hcredentials
          obtain ⟨rsv, dest, hcmd, hhost, hreq, hrbytes⟩ := readRequest_sound hrequest
          refine ⟨⟨by simpa using hfirst, by simpa using hsecond⟩,
            ⟨methods, gu, gp, req.cmd, rsv, dest, req.port⟩, ⟨hmethods, huser, hpass, hhost, hcmd⟩,
            rfl, rfl, hreq.symm, ?_⟩
          simp only [hgbytes, hcbytes, hrbytes, ClientHello.bytes, ClientHello.greeting,
            ClientHello.credentials, ClientHello.request, List.append_assoc, List.cons_append]
  · rintro ⟨⟨hfirst, hsecond⟩, h, hform, rfl, rfl, rfl, hbytes⟩
    rw [ClientHello.bytes, List.append_assoc, List.append_assoc] at hbytes
    obtain ⟨br₁, hgreeting, hbytes⟩ := readGreeting_complete hform.methods hbytes
    obtain ⟨br₂, hcredentials, hbytes⟩ := readCredentials_complete hform.user hform.pass hbytes
    obtain ⟨br₃, hrequest, hrest⟩ := readRequest_complete hform hbytes
    refine ⟨br₃, ?_, hrest⟩
    have hsame : ¬ (h.user ≠ h.user ∨ h.pass ≠ h.pass) := by
      rw [not_or, not_not, not_not]
      exact ⟨rfl, rfl⟩
    simp only [socksHandshake, hgreeting, hcredentials, hrequest, hfirst, hsecond, Bool.not_true,
      Bool.false_eq_true, if_false, if_neg hsame]

/-- What an accepted request says about the stream before it and the stream after it. -/
def Exact (user pass : List Byte) (br br' : Reader) (req : SocksRequest) : Prop :=
  ∃ h : ClientHello, h.WellFormed ∧ h.user = user ∧ h.pass = pass ∧ h.asked = req ∧
    br.bytes = h.bytes ++ br'.bytes ∧
    (req.host ≠ [] ↔ h.dest.atyp = 0x03) ∧ (h.dest.atyp ≠ 0x03 → req.ip ≠ .zero)

/-- The stream begins with a handshake for a domain without a name. -/
def AsksForNothing (user pass : List Byte) (br : Reader) : Prop :=
  ∃ (h : ClientHello) (rest : List Byte), h.WellFormed ∧ h.user = user ∧ h.pass = pass ∧
    h.dest = .domain [] ∧ br.bytes = h.bytes ++ rest

/-- **The handshake is exact**, and the host and the address exclude each other, unless the
client asks for a domain without a name. -/
theorem handshake_exact_iff (writes : List Byte → Bool) (br : Reader) (user pass : List Byte) :
    (∀ req br', (socksHandshake writes br user pass).accepted = some (req, br') →
      Exact user pass br br' req) ↔ ¬ (Writable writes ∧ AsksForNothing user pass br) := by
  constructor
  · rintro hexact ⟨hwritable, h, rest, hform, huser, hpass, hdest, hbytes⟩
    obtain ⟨br', haccepted, -⟩ := (accepted_iff br h.asked rest).mpr
      ⟨hwritable, h, hform, huser, hpass, rfl, hbytes⟩
    obtain ⟨h', -, -, -, -, -, hhost, hip⟩ := hexact h.asked br' haccepted
    -- neither a host nor an address is in the request
    have hnohost : h.asked.host = [] := by rw [ClientHello.asked, hdest, Dest.host]
    have hnoip : h.asked.ip = .zero := by rw [ClientHello.asked, hdest, Dest.ip]
    exact hip (mt hhost.mpr (not_not.mpr hnohost)) hnoip
  · intro hnot req br' haccepted
    obtain ⟨hwritable, h, hform, huser, hpass, hasked, hbytes⟩ :=
      (accepted_iff br req br'.bytes).mp ⟨br', haccepted, rfl⟩
    refine ⟨h, hform, huser, hpass, hasked, hbytes, ?_⟩
    rw [← hasked, ClientHello.asked]
    cases hdest : h.dest with
    | v4 bytes => exact ⟨iff_of_false (not_not.mpr rfl) (nomatch ·), fun _ => Addr.noConfusion⟩
    | v6 bytes => exact ⟨iff_of_false (not_not.mpr rfl) (nomatch ·), fun _ => Addr.noConfusion⟩
    | domain name =>
      have hname : name ≠ [] := by
        rintro rfl
        exact hnot ⟨hwritable, h, br'.bytes, hform, huser, hpass, hdest, hbytes⟩
      exact ⟨iff_of_true hname rfl, fun hother => absurd rfl hother⟩

/-- The caller takes a request for a literal if and only if one was sent. -/
theorem Exact.isIP {br br' : Reader} {req : SocksRequest} (h : Exact user pass br br' req) :
    req.isIP = true → req.ip ≠ .zero := by
  obtain ⟨hello, -, -, -, -, -, hhost, hip⟩ := h
  intro hliteral
  exact hip (mt hhost.mpr (not_not.mpr (of_decide_eq_true hliteral)))

end Handshake

/-- A handshake of `u` and `p`, in two pieces, that asks for a domain without a name. -/
def namelessDomain : Reader :=
  ⟨[], [[0x05, 1, 2, 0x01, 1, 0x75], [1, 0x70, 0x05, 0x01, 0, 0x03, 0, 0, 80]]⟩

/-- It is accepted without a host and without an address. -/
theorem nameless_domain_accepted :
    (socksHandshake (fun _ => true) namelessDomain [0x75] [0x70]).accepted =
        some (⟨socksCmdConnect, [], .zero, 80⟩, ⟨[], []⟩) ∧
      ¬ Exact [0x75] [0x70] namelessDomain ⟨[], []⟩ ⟨socksCmdConnect, [], .zero, 80⟩ := by
  refine ⟨by decide +kernel, ?_⟩
  rintro ⟨h, -, -, -, -, -, hhost, hip⟩
  exact hip (mt hhost.mpr (not_not.mpr rfl)) rfl

end Csqtt.Socks
