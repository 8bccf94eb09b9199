import Asrt.ClientServer.Message
import Asrt.Socket.Address

/-!
# Internet endpoints

`IP::BasicEndpoint` (`socket/internet_endpoint.hpp`): an address and a port in the layout of the
kernel. The port is converted to network order on the way in and returned as it is stored; the scope
of an IPv6 address is not stored.

## Main results

- `BasicEndpoint.port_ofAddress`, `BasicEndpoint.address_ofAddress`: what an endpoint gives back.
- `BasicEndpoint.roundTrips_iff`: the addresses and ports that come back.
-/

namespace Asrt.Socket.IP

open Asrt.ClientServer (toNetwork)
open ToMathlib

/-- `BasicEndpoint::PortNumber` -/
abbrev PortNumber := BitVec (8 * 2)

/-- `sockaddr_in` -/
structure SockAddrV4 where
  /-- `sin_port` -/
  sinPort : PortNumber
  /-- `sin_addr.s_addr` -/
  sAddr : BitVec 32
deriving DecidableEq, Repr

/-- `sockaddr_in6` -/
structure SockAddrV6 where
  /-- `sin6_port` -/
  sin6Port : PortNumber
  /-- `sin6_flowinfo` -/
  sin6Flowinfo : BitVec 32
  /-- `sin6_addr.s6_addr` -/
  s6Addr : V6.AddressByteArray
  /-- `sin6_scope_id` -/
  sin6ScopeId : BitVec 32
deriving DecidableEq, Repr

/-- `BasicEndpoint`: the union `addr_`, by the family it is initialised for. -/
inductive BasicEndpoint
  | v4 (addr : SockAddrV4)
  | v6 (addr : SockAddrV6)
deriving DecidableEq, Repr

namespace BasicEndpoint

/-- `InitV4()` -/
def initV4 (order : ByteOrder) (addr : BitVec 32) (portNum : PortNumber) : BasicEndpoint :=
  .v4 { sinPort := toNetwork order portNum, sAddr := addr }

/-- `InitV6()`. Without an address it is `IN6ADDR_ANY_INIT`. -/
def initV6 (order : ByteOrder) (addr : Option V6.AddressByteArray) (portNum : PortNumber) :
    BasicEndpoint :=
  .v6 { sin6Port := toNetwork order portNum
        sin6Flowinfo := 0
        s6Addr := addr.getD V6.kAddressUnspec
        sin6ScopeId := 0 }

/-- `BasicEndpoint(const IP::Address&, PortNumber)` -/
def ofAddress (order : ByteOrder) (addr : Address) (portNum : PortNumber) : BasicEndpoint :=
  match addr with
  | .v4 addr => initV4 order addr.data portNum
  | .v6 addr => initV6 order (some addr.data) portNum

/-- `Port()` -/
def port : BasicEndpoint → PortNumber
  | v4 addr => addr.sinPort
  | v6 addr => addr.sin6Port

/-- `Address()` -/
def address : BasicEndpoint → Address
  | v4 addr => .v4 (AddressV4.ofNetworkOrder addr.sAddr)
  | v6 addr => .v6 (AddressV6.ofNetworkOrder addr.s6Addr addr.sin6ScopeId)

/-- `operator==` -/
def beq (e e' : BasicEndpoint) : Bool := e.address.beq e'.address && e.port == e'.port

/-- `operator<=>` -/
def cmp (e e' : BasicEndpoint) : Ordering :=
  (e.address.cmp e'.address).then (compare e.port.toNat e'.port.toNat)

/-! ## What comes back -/

variable {order : ByteOrder} {addr addr' : Address} {portNum portNum' : PortNumber}

@[simp]
theorem port_ofAddress : (ofAddress order addr portNum).port = toNetwork order portNum := by
  cases addr with
  | v4 _ => rfl
  | v6 _ => rfl

/-- The scope of an address has the only value that comes back, or there is none. -/
def HasNoScope : Address → Prop
  | .v4 _ => True
  | .v6 addr => addr.scopeId = 0

theorem address_ofAddress :
    (ofAddress order addr portNum).address = addr ↔ HasNoScope addr := by
  cases addr with
  | v4 addr => exact iff_of_true rfl trivial
  | v6 addr =>
    obtain ⟨s6Addr, scopeId⟩ := addr
    have haddress : (ofAddress order (.v6 ⟨s6Addr, scopeId⟩) portNum).address =
        .v6 ⟨s6Addr, 0⟩ := rfl
    rw [haddress, HasNoScope, Address.v6.injEq, AddressV6.mk.injEq, and_iff_right rfl]
    exact eq_comm

/-- Swapping the two bytes of a port keeps it if they are equal. -/
theorem byteswap_eq_self_iff :
    byteswap portNum = portNum ↔ portNum.toNat / 256 = portNum.toNat % 256 := by
  have hlt : portNum.toNat < 65536 := portNum.isLt
  have hswap : (byteswap portNum).toNat = portNum.toNat / 256 + 256 * (portNum.toNat % 256) := by
    have hhigh : portNum.toNat / 256 < 256 := by omega
    have hsum : portNum.toNat / 256 + 256 * (portNum.toNat % 256) < 65536 := by omega
    simp [byteswap, load, store, lowBytes, ofLowBytes, ByteOrder.arrange,
      Nat.mod_eq_of_lt hhigh, Nat.mod_eq_of_lt hsum]
  rw [← BitVec.toNat_inj, hswap]
  omega

/-- The port comes back on a big-endian host, or if its two bytes are equal. -/
theorem toNetwork_eq_self_iff : toNetwork order portNum = portNum ↔
    order = .bigEndian ∨ portNum.toNat / 256 = portNum.toNat % 256 := by
  cases order with
  | bigEndian => simp [toNetwork]
  | littleEndian => simpa [toNetwork] using byteswap_eq_self_iff

/-- An endpoint gives back its address and its port. -/
structure RoundTrips (order : ByteOrder) (addr : Address) (portNum : PortNumber) : Prop where
  address : (ofAddress order addr portNum).address.beq addr = true
  port : (ofAddress order addr portNum).port = portNum

theorem roundTrips_iff : RoundTrips order addr portNum ↔ HasNoScope addr ∧
    (order = .bigEndian ∨ portNum.toNat / 256 = portNum.toNat % 256) := by
  constructor
  · intro h
    have hport := h.port
    rw [port_ofAddress] at hport
    exact ⟨address_ofAddress.mp (Address.beq_iff.mp h.address), toNetwork_eq_self_iff.mp hport⟩
  · rintro ⟨haddr, hport⟩
    refine ⟨Address.beq_iff.mpr (address_ofAddress.mpr haddr), ?_⟩
    rw [port_ofAddress]
    exact toNetwork_eq_self_iff.mpr hport

/-! ## Pairs of endpoints -/

/-- Two endpoints give back what they were made from, are equal exactly for equal addresses and
ports, and are ordered by the ports if the addresses are equal. -/
structure Faithful (order : ByteOrder) (addr addr' : Address) (portNum portNum' : PortNumber) :
    Prop where
  left : RoundTrips order addr portNum
  right : RoundTrips order addr' portNum'
  beq_iff : (ofAddress order addr portNum).beq (ofAddress order addr' portNum') = true ↔
    addr.beq addr' = true ∧ portNum = portNum'
  cmp_eq : addr.beq addr' = true →
    (ofAddress order addr portNum).cmp (ofAddress order addr' portNum') =
      compare portNum.toNat portNum'.toNat

/-- Endpoints are faithful exactly if no address has a scope and the ports, unless the host is
big-endian, consist of two equal bytes. -/
theorem faithful_iff (order : ByteOrder) (addr addr' : Address) (portNum portNum' : PortNumber) :
    Faithful order addr addr' portNum portNum' ↔
      (HasNoScope addr ∧ (order = .bigEndian ∨ portNum.toNat / 256 = portNum.toNat % 256)) ∧
      (HasNoScope addr' ∧ (order = .bigEndian ∨ portNum'.toNat / 256 = portNum'.toNat % 256)) := by
  rw [← roundTrips_iff, ← roundTrips_iff]
  constructor
  · intro h
    exact ⟨h.left, h.right⟩
  · rintro ⟨hleft, hright⟩
    -- both consequences are about what comes back
    have haddr := Address.beq_iff.mp hleft.address
    have haddr' := Address.beq_iff.mp hright.address
    refine ⟨hleft, hright, ?_, ?_⟩
    · rw [beq, haddr, haddr', hleft.port, hright.port, Bool.and_eq_true, beq_iff_eq]
    · intro heq
      rw [Address.beq_iff] at heq
      rw [cmp, haddr, haddr', hleft.port, hright.port, heq, Address.cmp_self]
      rfl

/-- Port `80` of `127.0.0.1` comes back as `20480` on a little-endian host, and an address with a
scope comes back without it on every host. -/
theorem not_faithful_port_80 :
    ¬ Faithful .littleEndian (.v4 ⟨0x0100007F⟩) (.v4 ⟨0x0100007F⟩) 80 80 ∧
    ∀ order, ¬ Faithful order (.v6 { scopeId := 2 }) (.v6 {}) 0 0 := by
  constructor
  · intro h
    exact absurd h.left.port (by decide)
  · intro order h
    have haddr := Address.beq_iff.mp h.left.address
    rw [address_ofAddress] at haddr
    exact absurd haddr (by simp [HasNoScope])

end BasicEndpoint

end Asrt.Socket.IP
