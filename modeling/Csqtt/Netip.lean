/-
`netip.ParseAddr`: an IP address in one of the forms "192.0.2.1", "2001:db8::68", or
"fe80::1cc0:3e8c:119f:c2e1%ens18".

Text is bytes here.  What is not an address gives `Addr.zero`, which stands for the error.
-/
import Mathlib.Data.BitVec
import Mathlib.Tactic.Common

namespace Csqtt.Socks

abbrev Byte := BitVec 8

/-- So many bytes. -/
abbrev Bytes (n : ℕ) := {bytes : List Byte // bytes.length = n}

/-- `netip.Addr`. -/
inductive Addr where
  /-- What `ParseAddr` gives with an error. -/
  | zero
  | v4 (bytes : Bytes 4)
  | v6 (bytes : Bytes 16) (zone : List Byte)
  deriving DecidableEq

def Addr.zone : Addr → List Byte
  | .zero | .v4 _ => []
  | .v6 _ zone => zone

/-- `netip.AddrFromSlice`. -/
def addrFromSlice (bytes : List Byte) : Addr :=
  if h : bytes.length = 4 then .v4 ⟨bytes, h⟩
  else if h : bytes.length = 16 then .v6 ⟨bytes, h⟩ []
  else .zero

theorem addrFromSlice_v4 (bytes : Bytes 4) : addrFromSlice bytes.val = .v4 bytes := by
  rw [addrFromSlice, dif_pos bytes.property]

theorem addrFromSlice_v6 (bytes : Bytes 16) : addrFromSlice bytes.val = .v6 bytes [] := by
  have hlength : bytes.val.length ≠ 4 := by
    rw [bytes.property]
    decide
  rw [addrFromSlice, dif_neg hlength, dif_pos bytes.property]

namespace Netip

def dot : Byte := 0x2e

def colon : Byte := 0x3a

def percent : Byte := 0x25

def decDigit (c : Byte) : Option ℕ := if 0x30 ≤ c ∧ c ≤ 0x39 then some (c.toNat - 0x30) else none

def hexDigit (c : Byte) : Option ℕ :=
  if 0x30 ≤ c ∧ c ≤ 0x39 then some (c.toNat - 0x30)
  else if 0x61 ≤ c ∧ c ≤ 0x66 then some (c.toNat - 0x61 + 10)
  else if 0x41 ≤ c ∧ c ≤ 0x46 then some (c.toNat - 0x41 + 10)
  else none

/-- The loop of `parseIPv4Fields`, with the character before. -/
def ipv4Fields (prev : Option Byte) (val digLen : ℕ) (fields : List Byte) :
    List Byte → Option (List Byte)
  | [] => if fields.length < 3 then none else some (fields ++ [BitVec.ofNat 8 val])
  | c :: s =>
    match decDigit c with
    | some d =>
      -- no leading zero, and no value above 255
      if digLen = 1 ∧ val = 0 then none
      else if 255 < val * 10 + d then none
      else ipv4Fields (some c) (val * 10 + d) (digLen + 1) fields s
    | none =>
      if c ≠ dot then none
      else if prev = none ∨ s = [] ∨ prev = some dot then none
      else if fields.length = 3 then none
      else ipv4Fields (some c) 0 0 (fields ++ [BitVec.ofNat 8 val]) s

def parseIPv4Fields (s : List Byte) : Option (List Byte) := ipv4Fields none 0 0 [] s

/-- A hex number: how many digits, its value and what follows. -/
def hexField (off acc : ℕ) : List Byte → Option (ℕ × ℕ × List Byte)
  | [] => some (off, acc, [])
  | c :: s =>
    match hexDigit c with
    | none => some (off, acc, c :: s)
    | some d => if 3 < off ∨ 65535 < acc * 16 + d then none else hexField (off + 1) (acc * 16 + d) s

/-- The loop of `parseIPv6`, with the rounds it has left: the bytes of the address, the place of
the ellipsis, and what is left of the text. -/
def ipv6Fields : ℕ → List Byte → Option ℕ → List Byte → Option (List Byte × Option ℕ × List Byte)
  | 0, ip, ellipsis, s => some (ip, ellipsis, s)
  | rounds + 1, ip, ellipsis, s =>
    match hexField 0 0 s with
    | none => none
    | some (off, acc, rest) =>
      if off = 0 then none
      else if rest.head? = some dot then
        -- a trailing IPv4 address
        if ellipsis = none ∧ ip.length ≠ 12 then none
        else if 16 < ip.length + 4 then none
        else (parseIPv4Fields s).map fun fields => (ip ++ fields, ellipsis, [])
      else
        let ip := ip ++ [BitVec.ofNat 8 (acc / 256), BitVec.ofNat 8 acc]
        match rest with
        | [] => some (ip, ellipsis, [])
        | [_] => none
        | c :: d :: rest =>
          if c ≠ colon then none
          else if d ≠ colon then ipv6Fields rounds ip ellipsis (d :: rest)
          else if ellipsis ≠ none then none
          else if rest = [] then some (ip, some ip.length, [])
          else ipv6Fields rounds ip (some ip.length) rest

/-- The end of `parseIPv6`: an ellipsis stands for the zeros that are missing. -/
def expandEllipsis (ip : List Byte) (ellipsis : Option ℕ) : Option (List Byte) :=
  match ellipsis with
  | none => if ip.length < 16 then none else some ip
  | some e =>
    if ip.length < 16 then some (ip.take e ++ List.replicate (16 - ip.length) 0 ++ ip.drop e)
    else none

/-- `AddrFrom16(ip).WithZone(zone)`. -/
def withZone (ip zone : List Byte) : Addr :=
  if h : ip.length = 16 then .v6 ⟨ip, h⟩ zone else .zero

def parseIPv6 (text : List Byte) : Addr :=
  let s := text.takeWhile (· ≠ percent)
  let zone := text.drop (s.length + 1)
  if s ≠ text ∧ zone = [] then .zero
  else
    let leading := s.take 2 = [colon, colon]
    if leading ∧ s.length = 2 then withZone (List.replicate 16 0) zone
    else
      match ipv6Fields 8 [] (if leading then some 0 else none) (if leading then s.drop 2 else s) with
      | none => .zero
      | some (ip, ellipsis, rest) =>
        if rest ≠ [] then .zero
        else
          match expandEllipsis ip ellipsis with
          | none => .zero
          | some ip => withZone ip zone

def parseIPv4 (s : List Byte) : Addr :=
  match parseIPv4Fields s with
  | none => .zero
  | some fields => addrFromSlice fields

/-- `netip.ParseAddr`; the first of these characters decides the form. -/
def parseAddr (s : List Byte) : Addr :=
  match s.find? fun c => c = dot ∨ c = colon ∨ c = percent with
  | none => .zero
  | some c => if c = dot then parseIPv4 s else if c = colon then parseIPv6 s else .zero

/-- The bytes of a text. -/
def ascii (text : String) : List Byte := text.toList.map fun c => BitVec.ofNat 8 c.toNat

example : parseAddr (ascii "192.0.2.1") = .v4 ⟨[192, 0, 2, 1], rfl⟩ := by decide +kernel

example : parseAddr (ascii "fe80::1%e") =
    .v6 ⟨[0xfe, 0x80, 0, 0, 0, 0, 0, 0, 0, 0, 0, 0, 0, 0, 0, 1], rfl⟩ [0x65] := by
  decide +kernel

example : parseAddr (ascii "192.0.02.1") = .zero := by decide +kernel

end Netip

end Csqtt.Socks
