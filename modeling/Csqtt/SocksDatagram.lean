/-
The header of a SOCKS5 UDP datagram, byte by byte.

`parseSocksUDPAt` reads by index and slices as the source does; an access outside the datagram
would end the program, and shows as `none`.

* `parseSocksUDPAt_eq` — there is none, and what is parsed is what `parseSocksUDP` says;
* `datagram_codec` — headers of targets without a zone are read back; a datagram that is
  accepted begins with exactly the header that its type describes, and its target is valid
  unless the resolver has answered with something that is not an address.
-/
import Csqtt.UdpAssociate

open ByteOrder

namespace Csqtt.Socks

/-- `p[lo:hi]`. -/
def slice (p : List Byte) (lo hi : ℕ) : Option (List Byte) :=
  if lo ≤ hi ∧ hi ≤ p.length then some ((p.drop lo).take (hi - lo)) else none

/-- The end of `parseSocksUDP`: the port and the payload. -/
def finishAt (p : List Byte) (ip : Addr) (off : ℕ) : Option (Option (AddrPort × List Byte)) :=
  p[off]?.bind fun hi => p[off + 1]?.bind fun lo => (slice p (off + 2) p.length).map fun data =>
    some (⟨ip, BitVec.ofNat 16 (ofBytes [hi, lo])⟩, data)

/-- `parseSocksUDP`; `lookupHost` gives no answers when it fails. -/
def parseSocksUDPAt (p : List Byte) (lookupHost : List Byte → Option (List (List Byte))) :
    Option (Option (AddrPort × List Byte)) :=
  if p.length < 4 then some none
  else p[2]?.bind fun frag =>
    if frag ≠ 0 then some none
    else p[3]?.bind fun atyp =>
      if atyp = 1 then
        if p.length < 4 + 4 + 2 then some none
        else (slice p 4 (4 + 4)).bind fun b => finishAt p (addrFromSlice b) (4 + 4)
      else if atyp = 4 then
        if p.length < 4 + 16 + 2 then some none
        else (slice p 4 (4 + 16)).bind fun b => finishAt p (addrFromSlice b) (4 + 16)
      else if atyp = 3 then
        if p.length < 4 + 1 then some none
        else p[4]?.bind fun l =>
          if p.length < 5 + l.toNat + 2 then some none
          else (slice p 5 (5 + l.toNat)).bind fun host =>
            match lookupHost host with
            | none | some [] => some none
            | some (first :: _) => finishAt p (Netip.parseAddr first) (5 + l.toNat)
      else some none

/-- `LookupHost`, and `ParseAddr` of its first answer. -/
def resolveFirst (lookupHost : List Byte → Option (List (List Byte))) (host : List Byte) :
    Option Addr :=
  match lookupHost host with
  | none | some [] => none
  | some (first :: _) => some (Netip.parseAddr first)

/-! ### Nothing is read outside -/

variable {p : List Byte} {lookupHost : List Byte → Option (List (List Byte))}

theorem slice_eq {lo hi : ℕ} (hlo : lo ≤ hi) (hhi : hi ≤ p.length) :
    slice p lo hi = some ((p.drop lo).take (hi - lo)) := if_pos ⟨hlo, hhi⟩

theorem finishAt_eq (ip : Addr) {off : ℕ} (h : off + 2 ≤ p.length) :
    finishAt p ip off = some (readPort ip (p.drop off)) := by
  have h₁ : off < p.length := by omega
  have h₂ : off + 1 < p.length := by omega
  rw [finishAt, List.getElem?_eq_getElem h₁, List.getElem?_eq_getElem h₂, Option.bind_some,
    Option.bind_some, slice_eq h (Nat.le_refl _), List.drop_eq_getElem_cons h₁,
    List.drop_eq_getElem_cons h₂, readPort, List.take_of_length_le (by rw [List.length_drop])]
  rfl

theorem readPort_short (ip : Addr) {q : List Byte} (h : q.length < 2) : readPort ip q = none := by
  match q with
  | [] | [_] => rfl
  | _ :: _ :: q => simp only [List.length_cons] at h; omega

section Header

variable {r₀ r₁ frag atyp : Byte} {q : List Byte}

/-- The first four bytes are behind. -/
theorem drop_header (n : ℕ) : (r₀ :: r₁ :: frag :: atyp :: q).drop (4 + n) = q.drop n := by
  rw [Nat.add_comm]
  rfl

/-- An address of fixed length, and what follows it. -/
theorem fixed_eq {n : ℕ} (ip : Bytes n → Addr) (hip : ∀ b, addrFromSlice b.val = ip b) :
    (if (r₀ :: r₁ :: frag :: atyp :: q).length < 4 + n + 2 then some none
      else (slice (r₀ :: r₁ :: frag :: atyp :: q) 4 (4 + n)).bind fun b =>
        finishAt (r₀ :: r₁ :: frag :: atyp :: q) (addrFromSlice b) (4 + n)) =
      some ((readBytes n q).bind fun (b, q) => readPort (ip b) q) := by
  have hlength : (r₀ :: r₁ :: frag :: atyp :: q).length = q.length + 4 := rfl
  split_ifs with hshort
  · by_cases hn : n ≤ q.length
    · have hrest : (q.drop n).length < 2 := by
        rw [List.length_drop]
        omega
      simp only [readBytes, dif_pos hn, Option.bind_some, readPort_short _ hrest]
    · rw [readBytes, dif_neg hn]
      rfl
  · have hn : n ≤ q.length := by omega
    rw [slice_eq (Nat.le_add_right 4 n) (by omega), Option.bind_some, finishAt_eq _ (by omega),
      readBytes, dif_pos hn, Option.bind_some, drop_header, Nat.add_sub_cancel_left]
    exact congrArg (fun ip => some (readPort ip (q.drop n))) (hip ⟨q.take n, _⟩)

/-- A domain of the length that its first byte says, and what follows it. -/
theorem domain_eq {l : Byte} (lookupHost : List Byte → Option (List (List Byte))) :
    (if (r₀ :: r₁ :: frag :: atyp :: l :: q).length < 5 + l.toNat + 2 then some none
      else (slice (r₀ :: r₁ :: frag :: atyp :: l :: q) 5 (5 + l.toNat)).bind fun host =>
        match lookupHost host with
        | none | some [] => some none
        | some (first :: _) => finishAt (r₀ :: r₁ :: frag :: atyp :: l :: q)
            (Netip.parseAddr first) (5 + l.toNat)) =
      some ((readBytes l.toNat q).bind fun (host, q) =>
        if q.length < 2 then none else (resolveFirst lookupHost host).bind (readPort · q)) := by
  have hlength : (r₀ :: r₁ :: frag :: atyp :: l :: q).length = q.length + 5 := rfl
  have hdrop : (r₀ :: r₁ :: frag :: atyp :: l :: q).drop (5 + l.toNat) = q.drop l.toNat := by
    rw [Nat.add_comm]
    rfl
  split_ifs with hshort
  · by_cases hn : l.toNat ≤ q.length
    · have hrest : (q.drop l.toNat).length < 2 := by
        rw [List.length_drop]
        omega
      simp only [readBytes, dif_pos hn, Option.bind_some, if_pos hrest]
    · rw [readBytes, dif_neg hn]
      rfl
  · have hn : l.toNat ≤ q.length := by omega
    have hrest : ¬ (q.drop l.toNat).length < 2 := by
      rw [List.length_drop]
      omega
    simp only [readBytes, dif_pos hn, Option.bind_some, if_neg hrest]
    rw [slice_eq (Nat.le_add_right 5 _) (by omega), Option.bind_some, Nat.add_sub_cancel_left,
      resolveFirst]
    show (match lookupHost (q.take l.toNat) with
      | none | some [] => some none
      | some (first :: _) => _) = _
    cases lookupHost (q.take l.toNat) with
    | none => rfl
    | some answers =>
      cases answers with
      | nil => rfl
      | cons first answers =>
        show finishAt _ _ _ = _
        rw [finishAt_eq _ (by omega), hdrop]
        rfl

end Header

theorem parseSocksUDPAt_eq (p : List Byte) (lookupHost : List Byte → Option (List (List Byte))) :
    parseSocksUDPAt p lookupHost = some (parseSocksUDP p (resolveFirst lookupHost)) := by
  match p with
  | [] | [_] | [_, _] | [_, _, _] => rfl
  | r₀ :: r₁ :: frag :: atyp :: q =>
    have hlength : (r₀ :: r₁ :: frag :: atyp :: q).length = q.length + 4 := rfl
    have hshort : ¬ (r₀ :: r₁ :: frag :: atyp :: q).length < 4 := by omega
    rw [parseSocksUDPAt, if_neg hshort]
    simp only [parseSocksUDP, List.getElem?_cons_succ, List.getElem?_cons_zero, Option.bind_some]
    by_cases hfrag : frag ≠ 0
    · rw [if_pos hfrag, if_pos hfrag]
    rw [if_neg hfrag, if_neg hfrag]
    by_cases hv4 : atyp = 1
    · rw [if_pos hv4, if_pos hv4]
      exact fixed_eq .v4 addrFromSlice_v4
    rw [if_neg hv4, if_neg hv4]
    by_cases hv6 : atyp = 4
    · rw [if_pos hv6, if_pos hv6]
      exact fixed_eq (.v6 · []) addrFromSlice_v6
    rw [if_neg hv6, if_neg hv6]
    by_cases hdomain : atyp = 3
    · rw [if_pos hdomain, if_pos hdomain]
      cases q with
      | nil => rfl
      | cons l q =>
        have hone : ¬ (r₀ :: r₁ :: frag :: atyp :: l :: q).length < 4 + 1 := by
          simp only [List.length_cons]
          omega
        rw [if_neg hone]
        exact domain_eq lookupHost
    · rw [if_neg hdomain, if_neg hdomain]

/-! ### What is accepted -/

/-- The length of the header, by its type and its length byte. -/
def headerLength (p : List Byte) : ℕ :=
  if p.getD 3 0 = 1 then 10 else if p.getD 3 0 = 4 then 22 else 7 + (p.getD 4 0).toNat

theorem readPort_eq_some {ip : Addr} {q data : List Byte} {t : AddrPort}
    (h : readPort ip q = some (t, data)) : 2 ≤ q.length ∧ t.addr = ip ∧ data = q.drop 2 := by
  match q with
  | [] | [_] => exact nomatch h
  | hi :: lo :: q =>
    cases h
    exact ⟨Nat.le_add_left 2 _, rfl, rfl⟩

theorem parseSocksUDP_header {resolve : List Byte → Option Addr} {t : AddrPort}
    {data : List Byte} (h : parseSocksUDP p resolve = some (t, data)) :
    headerLength p ≤ p.length ∧ data = p.drop (headerLength p) := by
  match p with
  | [] | [_] | [_, _] | [_, _, _] => exact nomatch h
  | r₀ :: r₁ :: frag :: atyp :: q =>
    simp only [parseSocksUDP] at h
    -- an address of fixed length
    have hfixed : ∀ {n : ℕ} {ip : Bytes n → Addr},
        (readBytes n q).bind (fun (b, q) => readPort (ip b) q) = some (t, data) →
        n + 2 ≤ q.length ∧ data = q.drop (n + 2) := by
      intro n ip hbind
      obtain ⟨⟨b, rest⟩, hread, hport⟩ := Option.bind_eq_some_iff.mp hbind
      rw [readBytes] at hread
      split_ifs at hread with hn
      cases hread
      obtain ⟨hrest, -, rfl⟩ := readPort_eq_some hport
      rw [List.length_drop] at hrest
      exact ⟨by omega, List.drop_drop⟩
    split_ifs at h with hfrag hv4 hv6 hdomain
    · obtain ⟨hle, hdata⟩ := @hfixed 4 .v4 h
      subst hv4
      exact ⟨by show 10 ≤ q.length + 4; omega, hdata⟩
    · obtain ⟨hle, hdata⟩ := @hfixed 16 (.v6 · []) h
      subst hv6
      exact ⟨by show 22 ≤ q.length + 4; omega, hdata⟩
    · subst hdomain
      cases q with
      | nil => exact absurd h.symm (Option.some_ne_none _)
      | cons l q =>
        obtain ⟨⟨host, rest⟩, hread, h⟩ := Option.bind_eq_some_iff.mp h
        dsimp only at h
        split_ifs at h with hshort
        obtain ⟨ip, -, hport⟩ := Option.bind_eq_some_iff.mp h
        rw [readBytes] at hread
        split_ifs at hread with hn
        cases hread
        obtain ⟨hrest, -, rfl⟩ := readPort_eq_some hport
        rw [List.length_drop] at hrest
        have hheader : headerLength (r₀ :: r₁ :: frag :: 3 :: l :: q) = l.toNat + 2 + 5 :=
          Nat.add_comm 7 _
        rw [hheader]
        exact ⟨by show _ ≤ q.length + 5; omega, List.drop_drop⟩

/-- The domain of a datagram that has one. -/
def domainOf (p : List Byte) : List Byte := (p.drop 5).take (p.getD 4 0).toNat

/-- A target that is not valid comes from the resolver. -/
theorem parseSocksUDP_zero {resolve : List Byte → Option Addr} {t : AddrPort}
    {data : List Byte} (h : parseSocksUDP p resolve = some (t, data)) (hzero : t.addr = .zero) :
    p.getD 3 0 = 3 ∧ resolve (domainOf p) = some .zero := by
  match p with
  | [] | [_] | [_, _] | [_, _, _] => exact nomatch h
  | r₀ :: r₁ :: frag :: atyp :: q =>
    simp only [parseSocksUDP] at h
    have hfixed : ∀ {n : ℕ} {ip : Bytes n → Addr}, (∀ b, ip b ≠ .zero) →
        (readBytes n q).bind (fun (b, q) => readPort (ip b) q) ≠ some (t, data) := by
      intro n ip hip hbind
      obtain ⟨⟨b, rest⟩, -, hport⟩ := Option.bind_eq_some_iff.mp hbind
      exact hip b ((readPort_eq_some hport).2.1.symm.trans hzero)
    split_ifs at h with hfrag hv4 hv6 hdomain
    · exact absurd h (@hfixed 4 .v4 fun _ => Addr.noConfusion)
    · exact absurd h (@hfixed 16 (.v6 · []) fun _ => Addr.noConfusion)
    · cases q with
      | nil => exact absurd h.symm (Option.some_ne_none _)
      | cons l q =>
        obtain ⟨⟨host, rest⟩, hread, h⟩ := Option.bind_eq_some_iff.mp h
        dsimp only at h
        split_ifs at h with hshort
        obtain ⟨ip, hresolve, hport⟩ := Option.bind_eq_some_iff.mp h
        rw [readBytes] at hread
        split_ifs at hread with hn
        cases hread
        refine ⟨hdomain, ?_⟩
        show resolve (q.take l.toNat) = _
        rw [hresolve, ← (readPort_eq_some hport).2.1, hzero]

/-- **The codec of the datagrams**: the header of a target without a zone is read back; no
datagram makes the parser read outside it, and one that is accepted is the header that its type
and its length byte describe, and the payload; its target is valid, unless the resolver answers
for its domain with something that is not an address. -/
theorem datagram_codec :
    (∀ (t : AddrPort) (data : List Byte) (lookupHost : List Byte → Option (List (List Byte))),
      t.addr ≠ .zero → t.addr.zone = [] →
        parseSocksUDPAt (buildSocksUDPHeader t ++ data) lookupHost = some (some (t, data))) ∧
      ∀ (p : List Byte) (lookupHost : List Byte → Option (List (List Byte))),
        ∃ result, parseSocksUDPAt p lookupHost = some result ∧
          ∀ t data, result = some (t, data) →
            headerLength p ≤ p.length ∧ data = p.drop (headerLength p) ∧
              (t.addr ≠ .zero ∨ p.getD 3 0 = 3 ∧ ∃ first answers,
                lookupHost (domainOf p) = some (first :: answers) ∧
                  Netip.parseAddr first = .zero) := by
  refine ⟨fun t data lookupHost ht hzone => ?_, fun p lookupHost => ?_⟩
  · rw [parseSocksUDPAt_eq, parseSocksUDP_build t ht hzone]
  · refine ⟨_, parseSocksUDPAt_eq p lookupHost, fun t data h => ?_⟩
    obtain ⟨hheader, hdata⟩ := parseSocksUDP_header h
    refine ⟨hheader, hdata, ?_⟩
    by_cases hzero : t.addr = .zero
    · obtain ⟨hdomain, hresolve⟩ := parseSocksUDP_zero h hzero
      rw [resolveFirst] at hresolve
      split at hresolve
      · exact nomatch hresolve
      · exact nomatch hresolve
      · next first answers hlookup =>
        exact .inr ⟨hdomain, first, answers, hlookup, Option.some_inj.mp hresolve⟩
    · exact .inl hzero

/-- `::ffff:192.0.2.1`, which is not an IPv4 address. -/
def mapped (zone : List Byte) : AddrPort :=
  ⟨.v6 ⟨[0, 0, 0, 0, 0, 0, 0, 0, 0, 0, 0xff, 0xff, 192, 0, 2, 1], rfl⟩ zone, 443⟩

theorem mapped_read_back :
    parseSocksUDPAt (buildSocksUDPHeader (mapped []) ++ [7]) (fun _ => none) =
      some (some (mapped [], [7])) :=
  datagram_codec.1 (mapped []) [7] _ Addr.noConfusion rfl

/-- A datagram to the domain `a`. -/
def toDomain : List Byte := [0, 0, 0, 3, 1, 0x61, 0, 53, 7]

/-- A target with a zone comes back without it, and an answer that is not an address gives a
target that is not valid. -/
theorem codec_inexact :
    parseSocksUDPAt (buildSocksUDPHeader (mapped [0x31]) ++ [7]) (fun _ => none) ≠
        some (some (mapped [0x31], [7])) ∧
      parseSocksUDPAt toDomain (fun _ => some [Netip.ascii "a.example"]) =
        some (some (⟨.zero, 53⟩, [7])) := by
  refine ⟨?_, ?_⟩
  · rw [parseSocksUDPAt_eq]
    decide +kernel
  · rw [parseSocksUDPAt_eq]
    decide +kernel

end Csqtt.Socks
