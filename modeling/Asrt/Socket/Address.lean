import Mathlib.Data.Nat.Notation

/-!
# Internet addresses

`IP::AddressV4`, `IP::AddressV6` and `IP::Address` (`socket/address_v4.hpp`,
`socket/address_v6.hpp`, `socket/address.hpp`). An address of either family is kept in network
order. The constructors of `AddressV6` that take bytes without a tag reverse them, and so does
`ToBytes()`, which the comparisons and the classification go through.

## Main results

- `AddressV6.beq_iff`, `Address.beq_iff`: the reversal cancels out in comparisons.
- `AddressV6.isLoopback_iff`, `AddressV6.isMulticast_iff`: in the classification it does not, where
  the bytes are compared with a constant in network order.
-/

namespace Asrt.Socket.IP

/-! ## Version 4 -/

/-- `AddressV4` -/
structure AddressV4 where
  /-- `address_.s_addr`, in network order. -/
  sAddr : BitVec 32 := 0
deriving DecidableEq, Repr

namespace AddressV4

/-- `AddressV4(V4::AddressUint, NetworkOrderConstructionTag)` -/
def ofNetworkOrder (addr : BitVec 32) : AddressV4 := ⟨addr⟩

/-- `data()` -/
def data (a : AddressV4) : BitVec 32 := a.sAddr

/-- `operator==` -/
def beq (a b : AddressV4) : Bool := a.sAddr == b.sAddr

/-- `operator<=>` -/
def cmp (a b : AddressV4) : Ordering := compare a.sAddr b.sAddr

theorem beq_iff {a b : AddressV4} : a.beq b = true ↔ a = b := by
  cases a
  cases b
  simp [beq]

@[simp]
theorem cmp_self (a : AddressV4) : a.cmp a = .eq :=
  Std.ReflOrd.compare_self (a := a.sAddr)

end AddressV4

/-! ## Version 6 -/

/-- `V6::AddressByteArray` and `V6::AddressCArray` -/
abbrev V6.AddressByteArray := Vector UInt8 16

/-- `V6::kAddressUnspec` -/
def V6.kAddressUnspec : V6.AddressByteArray := Vector.replicate 16 0

/-- `V6::kAddressLoopback` -/
def V6.kAddressLoopback : V6.AddressByteArray := #v[0, 0, 0, 0, 0, 0, 0, 0, 0, 0, 0, 0, 0, 0, 0, 1]

/-- `V6::kAddressBroadcast` -/
def V6.kAddressBroadcast : V6.AddressByteArray := Vector.replicate 16 0xFF

/-- `AddressV6` -/
structure AddressV6 where
  /-- `address_.s6_addr`, in network order. -/
  s6Addr : V6.AddressByteArray := Vector.replicate 16 0
  /-- `scope_id_` -/
  scopeId : BitVec 32 := 0
deriving DecidableEq, Repr

namespace AddressV6

/-- `AddressV6(const V6::AddressCArray&, V6::ScopeId)` and the constructor from an
`AddressByteArray`: byte `i` is byte `15 - i` of the argument. -/
def ofBytes (addr : V6.AddressByteArray) (scopeId : BitVec 32 := 0) : AddressV6 :=
  ⟨addr.reverse, scopeId⟩

/-- The same constructors with a `NetworkOrderConstructionTag`. -/
def ofNetworkOrder (addr : V6.AddressByteArray) (scopeId : BitVec 32 := 0) : AddressV6 :=
  ⟨addr, scopeId⟩

/-- `AddressV6(const ::in6_addr&)` -/
def ofIn6Addr (s6Addr : V6.AddressByteArray) : AddressV6 := { s6Addr }

/-- `data()` -/
def data (a : AddressV6) : V6.AddressByteArray := a.s6Addr

/-- `ToBytes()` -/
def toBytes (a : AddressV6) : V6.AddressByteArray := a.s6Addr.reverse

/-- `IsLoopback()` -/
def isLoopback (a : AddressV6) : Bool := a.toBytes == V6.kAddressLoopback

/-- `IsMulticast()`. It compares with the same constant as `IsLoopback()`. -/
def isMulticast (a : AddressV6) : Bool := a.toBytes == V6.kAddressLoopback

/-- `IsUnspecified()` -/
def isUnspecified (a : AddressV6) : Bool := a.toBytes == V6.kAddressUnspec

/-- `Loopback()` -/
def loopback : AddressV6 := ofBytes V6.kAddressLoopback

/-- `Broadcast()` -/
def broadcast : AddressV6 := ofBytes V6.kAddressBroadcast

/-- `operator==` -/
def beq (a b : AddressV6) : Bool := a.toBytes == b.toBytes && a.scopeId == b.scopeId

/-- `operator<=>` -/
def cmp (a b : AddressV6) : Ordering :=
  (compare a.toBytes b.toBytes).then (compare a.scopeId b.scopeId)

/-- Reversing the bytes can be moved to the other side of an equation. -/
theorem toBytes_eq_iff {a : AddressV6} {bytes : V6.AddressByteArray} :
    a.toBytes = bytes ↔ a.s6Addr = bytes.reverse := by
  constructor
  · rintro rfl
    exact (Vector.reverse_reverse _).symm
  · intro h
    rw [toBytes, h, Vector.reverse_reverse]

theorem beq_iff {a b : AddressV6} : a.beq b = true ↔ a = b := by
  have hbytes : a.toBytes = b.toBytes ↔ a.s6Addr = b.s6Addr := by
    rw [toBytes_eq_iff, toBytes, Vector.reverse_reverse]
  cases a
  cases b
  simpa [beq] using and_congr_left fun _ => hbytes

@[simp]
theorem cmp_self (a : AddressV6) : a.cmp a = .eq := by
  have hbytes : compare a.toBytes a.toBytes = .eq := Std.ReflCmp.compare_self
  have hscope : compare a.scopeId a.scopeId = .eq := Std.ReflCmp.compare_self
  rw [cmp, hbytes, hscope]
  rfl

/-! ## Classification -/

theorem isLoopback_iff {a : AddressV6} :
    a.isLoopback = true ↔ a.s6Addr = V6.kAddressLoopback.reverse := by
  rw [isLoopback, beq_iff_eq, toBytes_eq_iff]

theorem isMulticast_iff {a : AddressV6} :
    a.isMulticast = true ↔ a.s6Addr = V6.kAddressLoopback.reverse := by
  rw [isMulticast, beq_iff_eq, toBytes_eq_iff]

theorem isUnspecified_iff {a : AddressV6} :
    a.isUnspecified = true ↔ a.s6Addr = V6.kAddressUnspec := by
  rw [isUnspecified, beq_iff_eq, toBytes_eq_iff, V6.kAddressUnspec, Vector.reverse_replicate]

/-- The ways to construct an address: the constructors and the static functions. -/
inductive Construction
  | default
  | bytes (addr : V6.AddressByteArray) (scopeId : BitVec 32)
  | networkOrder (addr : V6.AddressByteArray) (scopeId : BitVec 32)
  | in6Addr (s6Addr : V6.AddressByteArray)
  | loopback
  | broadcast
deriving DecidableEq, Repr

/-- The address that is constructed. -/
def Construction.address : Construction → AddressV6
  | default => {}
  | bytes addr scopeId => ofBytes addr scopeId
  | networkOrder addr scopeId => ofNetworkOrder addr scopeId
  | in6Addr s6Addr => ofIn6Addr s6Addr
  | loopback => AddressV6.loopback
  | broadcast => AddressV6.broadcast

/-- `::1` on the wire. -/
def wireLoopback : V6.AddressByteArray := #v[0, 0, 0, 0, 0, 0, 0, 0, 0, 0, 0, 0, 0, 0, 0, 1]

/-- `100::` on the wire, which has the bytes of `::1` in reverse. -/
def wireReversedLoopback : V6.AddressByteArray :=
  #v[1, 0, 0, 0, 0, 0, 0, 0, 0, 0, 0, 0, 0, 0, 0, 0]

theorem reverse_kAddressLoopback : V6.kAddressLoopback.reverse = wireReversedLoopback := by
  simp [V6.kAddressLoopback, wireReversedLoopback]

/-- An address is classified by its bytes on the wire, and `Loopback()` is `::1`. -/
structure AgreesWithWire (c : Construction) : Prop where
  isLoopback : c.address.isLoopback = true ↔ c.address.s6Addr = wireLoopback
  isMulticast : c.address.isMulticast = true ↔ c.address.s6Addr[0] = 0xFF
  isUnspecified : c.address.isUnspecified = true ↔ ∀ byte ∈ c.address.s6Addr, byte = 0
  loopback : c = .loopback → c.address.s6Addr = wireLoopback ∧ c.address.isLoopback = true ∧
    c.address.isMulticast = false

/-- The classification agrees with the wire exactly for the addresses that are not `::1`, not
`100::` and not multicast. `Loopback()` is `100::`. -/
theorem agreesWithWire_iff (c : Construction) :
    AgreesWithWire c ↔ c.address.s6Addr ≠ wireLoopback ∧ c.address.s6Addr ≠ wireReversedLoopback ∧
      c.address.s6Addr[0] ≠ 0xFF := by
  have hne : wireLoopback ≠ wireReversedLoopback := by decide
  constructor
  · intro h
    have hloopback := isLoopback_iff.symm.trans h.isLoopback
    have hmulticast := isMulticast_iff.symm.trans h.isMulticast
    rw [reverse_kAddressLoopback] at hloopback hmulticast
    refine ⟨?_, ?_, ?_⟩
    · intro heq
      exact hne (heq.symm.trans (hloopback.mpr heq))
    · intro heq
      exact hne ((hloopback.mp heq).symm.trans heq)
    · intro hfirst
      -- the only address that `IsMulticast()` accepts begins with another byte
      have heq := hmulticast.mpr hfirst
      rw [heq] at hfirst
      exact absurd hfirst (by decide)
  · rintro ⟨hloopback, hreversed, hfirst⟩
    refine ⟨?_, ?_, ?_, ?_⟩
    · rw [isLoopback_iff, reverse_kAddressLoopback]
      exact iff_of_false hreversed hloopback
    · rw [isMulticast_iff, reverse_kAddressLoopback]
      exact iff_of_false hreversed hfirst
    · rw [isUnspecified_iff]
      exact Vector.eq_replicate_iff
    · rintro rfl
      exact absurd reverse_kAddressLoopback hreversed

/-- `::1` from the kernel is not classified as loopback, and `Loopback()` is not `::1`. -/
theorem not_agreesWithWire_loopback :
    ¬ AgreesWithWire (.in6Addr wireLoopback) ∧ ¬ AgreesWithWire .loopback := by
  constructor
  · intro h
    have heq := isLoopback_iff.mp (h.isLoopback.mpr rfl)
    rw [reverse_kAddressLoopback] at heq
    exact absurd heq (by decide)
  · intro h
    have heq : V6.kAddressLoopback.reverse = wireLoopback := (h.loopback rfl).1
    rw [reverse_kAddressLoopback] at heq
    exact absurd heq (by decide)

end AddressV6

/-! ## Both versions -/

/-- `Address` -/
inductive Address
  | v4 (addr : AddressV4)
  | v6 (addr : AddressV6)
deriving DecidableEq, Repr

namespace Address

/-- `operator==`, the one of `std::variant`. -/
def beq : Address → Address → Bool
  | v4 a, v4 b => a.beq b
  | v6 a, v6 b => a.beq b
  | _, _ => false

/-- `operator<=>`, the one of `std::variant`: the alternatives are compared first. -/
def cmp : Address → Address → Ordering
  | v4 a, v4 b => a.cmp b
  | v6 a, v6 b => a.cmp b
  | v4 _, v6 _ => .lt
  | v6 _, v4 _ => .gt

theorem beq_iff {a b : Address} : a.beq b = true ↔ a = b := by
  cases a with
  | v4 a =>
    cases b with
    | v4 b => simpa [beq] using AddressV4.beq_iff
    | v6 b => simp [beq]
  | v6 a =>
    cases b with
    | v4 b => simp [beq]
    | v6 b => simpa [beq] using AddressV6.beq_iff

@[simp]
theorem cmp_self (a : Address) : a.cmp a = .eq := by
  cases a with
  | v4 a => exact AddressV4.cmp_self a
  | v6 a => exact AddressV6.cmp_self a

end Address

end Asrt.Socket.IP
