import Asrt.ClientServer.Message
import Asrt.Socket.Address
import Mathlib.Tactic.IntervalCases

/-!
# Addresses of version 4

The rest of `IP::AddressV4` (`socket/address_v4.hpp`): the constructors from a number in host order
and from bytes, `ToUint()`, `ToBytes()` with its path for constant evaluation, and the
classification, for both byte orders of the host. The constructor from a string and `ToString()`,
which call `inet_pton()` and `inet_ntop()`, are left out.

## Main results

- `AddressV4.agreesWithWire`: unlike those of version 6, all addresses are given back and classified
  as they are on the wire, on every host. Only `operator<=>` orders them by the number in memory.
-/

namespace Asrt.Socket.IP

open Asrt.ClientServer (toNetwork toHost)
open ToMathlib

/-- `V4::AddressByteArray` -/
abbrev V4.AddressByteArray := Vector UInt8 4

/-- `V4::kLoopbackMask` -/
def V4.kLoopbackMask : BitVec 32 := 0xFF000000

/-- `V4::kMulticastMask` -/
def V4.kMulticastMask : BitVec 32 := 0xF0000000

/-- `V4::kLoopbackAddrUint` -/
def V4.kLoopbackAddrUint : BitVec 32 := 0x7F000001

/-- `V4::kBroadcastAddrUint` -/
def V4.kBroadcastAddrUint : BitVec 32 := 0xFFFFFFFF

/-- `V4::kLoopbackRange` -/
def V4.kLoopbackRange : BitVec 32 := 0x7F000000

/-- `V4::kMulticastRange` -/
def V4.kMulticastRange : BitVec 32 := 0xE0000000

namespace AddressV4

/-- `AddressV4(V4::AddressUint)` -/
def ofHostOrder (order : ByteOrder) (addr : BitVec 32) : AddressV4 :=
  ⟨toNetwork (w := 4) order addr⟩

/-- `AddressV4(const V4::AddressByteArray&)` -/
def ofByteArray (order : ByteOrder) (addr : V4.AddressByteArray) : AddressV4 :=
  let host : BitVec 32 :=
    addr[0].toBitVec.setWidth 32 <<< 24 ||| addr[1].toBitVec.setWidth 32 <<< 16 |||
      addr[2].toBitVec.setWidth 32 <<< 8 ||| addr[3].toBitVec.setWidth 32
  ofHostOrder order host

/-- `ToUint()`; `ntohl()` does the same as `ToHost()`, which replaces it in constant evaluation. -/
def toUint (order : ByteOrder) (a : AddressV4) : BitVec 32 := toHost (w := 4) order a.sAddr

/-- `ToBytes()` in constant evaluation. -/
def toBytesConstant (order : ByteOrder) (a : AddressV4) : V4.AddressByteArray :=
  let host := a.toUint order
  #v[⟨((host &&& 0xFF000000) >>> 24).setWidth 8⟩, ⟨((host &&& 0x00FF0000) >>> 16).setWidth 8⟩,
    ⟨((host &&& 0x0000FF00) >>> 8).setWidth 8⟩, ⟨(host &&& 0x000000FF).setWidth 8⟩]

/-- The bytes of `address_` in memory, which are those on the wire. -/
def wire (order : ByteOrder) (a : AddressV4) : V4.AddressByteArray :=
  ⟨(store (w := 4) order a.sAddr).toArray, length_store ..⟩

/-- `ToBytes()` at run time copies the memory. -/
def toBytes (order : ByteOrder) (a : AddressV4) : V4.AddressByteArray := a.wire order

/-- `IsLoopback()` -/
def isLoopback (order : ByteOrder) (a : AddressV4) : Bool :=
  a.toUint order &&& V4.kLoopbackMask == V4.kLoopbackRange

/-- `IsMulticast()` -/
def isMulticast (order : ByteOrder) (a : AddressV4) : Bool :=
  a.toUint order &&& V4.kMulticastMask == V4.kMulticastRange

/-- `IsUnspecified()` -/
def isUnspecified (a : AddressV4) : Bool := a.sAddr == 0

/-- `Loopback()` -/
def loopback (order : ByteOrder) : AddressV4 := ofHostOrder order V4.kLoopbackAddrUint

/-- `Broadcast()` -/
def broadcast (order : ByteOrder) : AddressV4 := ofHostOrder order V4.kBroadcastAddrUint

/-! ## Bytes -/

variable {order : ByteOrder} {a b : AddressV4}

/-- The bytes of a number, the most significant first. -/
def hostBytes (host : BitVec 32) : V4.AddressByteArray :=
  #v[⟨(host >>> 24).setWidth 8⟩, ⟨(host >>> 16).setWidth 8⟩, ⟨(host >>> 8).setWidth 8⟩,
    ⟨host.setWidth 8⟩]

theorem toList_hostBytes (host : BitVec 32) :
    (hostBytes host).toList = store (w := 4) .bigEndian host := by
  have hbyte : ∀ n, UInt8.ofNat (host.toNat / 2 ^ n) = ⟨(host >>> n).setWidth 8⟩ := by
    intro n
    apply UInt8.toNat_inj.mp
    simp [Nat.shiftRight_eq_div_pow]
  have hzero : UInt8.ofNat host.toNat = ⟨host.setWidth 8⟩ := by simpa using hbyte 0
  have h8 := hbyte 8
  have h16 := hbyte 16
  have h24 := hbyte 24
  simp only [Nat.reducePow] at h8 h16 h24
  simp only [hostBytes, store, ByteOrder.arrange, lowBytes, Nat.div_div_eq_div_mul, Nat.reduceMul,
    hzero, h8, h16, h24]
  rfl

/-- The number is that of the bytes on the wire, the most significant first. -/
theorem toUint_eq_load (order : ByteOrder) (a : AddressV4) :
    a.toUint order = load .bigEndian 4 (a.wire order).toList := by
  have hwire : (a.wire order).toList = store (w := 4) order a.sAddr := rfl
  have hlength : (store (w := 4) order a.sAddr).length = 4 := length_store ..
  rw [hwire, ← ClientServer.NetworkOrder.toHost_ofData order hlength,
    ClientServer.NetworkOrder.ofData, load_store]
  rfl

/-- The bytes on the wire are those of the number, on every host. -/
theorem wire_eq_hostBytes (order : ByteOrder) (a : AddressV4) :
    a.wire order = hostBytes (a.toUint order) := by
  apply Vector.toList_inj.mp
  have hlength : (a.wire order).toList.length = 4 := length_store ..
  rw [toList_hostBytes, toUint_eq_load, store_load hlength]

theorem wire_ofHostOrder (order : ByteOrder) (host : BitVec 32) :
    (ofHostOrder order host).wire order = hostBytes host := by
  apply Vector.toList_inj.mp
  rw [toList_hostBytes, ← ClientServer.NetworkOrder.data_ofHost order]
  rfl

/-- The four bytes of a number that is put together from them. -/
theorem hostBytes_of_bytes (b₀ b₁ b₂ b₃ : UInt8) :
    hostBytes (b₀.toBitVec.setWidth 32 <<< 24 ||| b₁.toBitVec.setWidth 32 <<< 16 |||
      b₂.toBitVec.setWidth 32 <<< 8 ||| b₃.toBitVec.setWidth 32) = #v[b₀, b₁, b₂, b₃] := by
  obtain ⟨b₀⟩ := b₀
  obtain ⟨b₁⟩ := b₁
  obtain ⟨b₂⟩ := b₂
  obtain ⟨b₃⟩ := b₃
  have h24 : ((b₀.setWidth 32 <<< 24 ||| b₁.setWidth 32 <<< 16 ||| b₂.setWidth 32 <<< 8 |||
      b₃.setWidth 32) >>> 24).setWidth 8 = b₀ := by
    ext i hi
    interval_cases i <;> simp
  have h16 : ((b₀.setWidth 32 <<< 24 ||| b₁.setWidth 32 <<< 16 ||| b₂.setWidth 32 <<< 8 |||
      b₃.setWidth 32) >>> 16).setWidth 8 = b₁ := by
    ext i hi
    interval_cases i <;> simp
  have h8 : ((b₀.setWidth 32 <<< 24 ||| b₁.setWidth 32 <<< 16 ||| b₂.setWidth 32 <<< 8 |||
      b₃.setWidth 32) >>> 8).setWidth 8 = b₂ := by
    ext i hi
    interval_cases i <;> simp
  have h0 : (b₀.setWidth 32 <<< 24 ||| b₁.setWidth 32 <<< 16 ||| b₂.setWidth 32 <<< 8 |||
      b₃.setWidth 32).setWidth 8 = b₃ := by
    ext i hi
    interval_cases i <;> simp
  simp only [hostBytes, h24, h16, h8, h0]

theorem wire_ofByteArray (order : ByteOrder) (addr : V4.AddressByteArray) :
    (ofByteArray order addr).wire order = addr := by
  rw [ofByteArray, wire_ofHostOrder, hostBytes_of_bytes]
  ext i hi
  interval_cases i <;> rfl

/-- The bytes that are cut out with masks. -/
theorem maskedBytes (host : BitVec 32) :
    (#v[⟨((host &&& 0xFF000000#32) >>> 24).setWidth 8⟩,
      ⟨((host &&& 0x00FF0000#32) >>> 16).setWidth 8⟩,
      ⟨((host &&& 0x0000FF00#32) >>> 8).setWidth 8⟩,
      ⟨(host &&& 0x000000FF#32).setWidth 8⟩] : V4.AddressByteArray) = hostBytes host := by
  have h24 : ((host &&& 0xFF000000#32) >>> 24).setWidth 8 = (host >>> 24).setWidth 8 := by
    ext i hi
    interval_cases i <;> simp
  have h16 : ((host &&& 0x00FF0000#32) >>> 16).setWidth 8 = (host >>> 16).setWidth 8 := by
    ext i hi
    interval_cases i <;> simp
  have h8 : ((host &&& 0x0000FF00#32) >>> 8).setWidth 8 = (host >>> 8).setWidth 8 := by
    ext i hi
    interval_cases i <;> simp
  have h0 : (host &&& 0x000000FF#32).setWidth 8 = host.setWidth 8 := by
    ext i hi
    interval_cases i <;> simp
  simp only [h24, h16, h8, h0, hostBytes]

/-- In constant evaluation the bytes are the same. -/
theorem toBytesConstant_eq_wire (order : ByteOrder) (a : AddressV4) :
    a.toBytesConstant order = a.wire order := by
  rw [wire_eq_hostBytes]
  exact maskedBytes (a.toUint order)

/-- `operator<=>` finds equal what `operator==` does. -/
theorem cmp_eq_iff : a.cmp b = .eq ↔ a = b := by
  refine ⟨fun h => ?_, fun h => h ▸ cmp_self a⟩
  cases a
  cases b
  exact congrArg AddressV4.mk (Std.LawfulEqOrd.eq_of_compare h)

theorem wire_inj (order : ByteOrder) : a.wire order = b.wire order ↔ a = b := by
  refine ⟨fun h => ?_, fun h => h ▸ rfl⟩
  have hstore : store (w := 4) order a.sAddr = store (w := 4) order b.sAddr :=
    congrArg Vector.toList h
  have hload := congrArg (load order 4) hstore
  rw [load_store, load_store] at hload
  cases a
  cases b
  exact congrArg AddressV4.mk hload

/-! ## Classification -/

theorem and_kLoopbackMask_iff (host : BitVec 32) :
    host &&& V4.kLoopbackMask = V4.kLoopbackRange ↔ (hostBytes host)[0] = 127 := by
  have hmask : host &&& V4.kLoopbackMask = (host >>> 24) <<< 24 := by
    change host &&& 0xFF000000#32 = _
    ext i hi
    interval_cases i <;> simp
  have hrange : V4.kLoopbackRange = 0x7F000000#32 := rfl
  have hlt := host.isLt
  rw [hmask, hrange]
  simp [hostBytes, ← BitVec.toNat_inj, ← UInt8.toNat_inj, Nat.shiftLeft_eq,
    Nat.shiftRight_eq_div_pow]
  omega

theorem and_kMulticastMask_iff (host : BitVec 32) :
    host &&& V4.kMulticastMask = V4.kMulticastRange ↔ (hostBytes host)[0].toNat / 16 = 14 := by
  have hmask : host &&& V4.kMulticastMask = (host >>> 28) <<< 28 := by
    change host &&& 0xF0000000#32 = _
    ext i hi
    interval_cases i <;> simp
  have hrange : V4.kMulticastRange = 0xE0000000#32 := rfl
  have hlt := host.isLt
  rw [hmask, hrange]
  simp [hostBytes, ← BitVec.toNat_inj, Nat.shiftLeft_eq, Nat.shiftRight_eq_div_pow]
  omega

theorem isLoopback_iff : a.isLoopback order = true ↔ (a.wire order)[0] = 127 := by
  rw [wire_eq_hostBytes, isLoopback, beq_iff_eq]
  exact and_kLoopbackMask_iff (a.toUint order)

/-- The multicast addresses are `224.0.0.0` to `239.255.255.255`. -/
theorem isMulticast_iff :
    a.isMulticast order = true ↔ 224 ≤ (a.wire order)[0].toNat ∧ (a.wire order)[0].toNat < 240 := by
  rw [wire_eq_hostBytes, isMulticast, beq_iff_eq]
  refine (and_kMulticastMask_iff (a.toUint order)).trans ?_
  omega

theorem isUnspecified_iff : a.isUnspecified = true ↔ a.wire order = Vector.replicate 4 0 := by
  have hzero : ({} : AddressV4).wire order = Vector.replicate 4 0 := by
    cases order <;> decide
  rw [← hzero, wire_inj, isUnspecified, beq_iff_eq]
  cases a
  simp

/-! ## Main result -/

/-- An address gives back what it is made from, is equal to those that are the same on the wire, and
is classified by its first byte there. -/
structure AgreesWithWire (order : ByteOrder) (a : AddressV4) : Prop where
  toBytes : a.toBytes order = a.wire order
  toBytesConstant : a.toBytesConstant order = a.wire order
  toUint : a.toUint order = load .bigEndian 4 (a.wire order).toList
  ofHostOrder_toUint : ofHostOrder order (a.toUint order) = a
  ofNetworkOrder_data : ofNetworkOrder a.data = a
  ofByteArray_toBytes : ofByteArray order (a.toBytes order) = a
  beq (b : AddressV4) : a.beq b = true ↔ a.wire order = b.wire order
  cmp (b : AddressV4) : a.cmp b = .eq ↔ a.wire order = b.wire order
  isLoopback : a.isLoopback order = true ↔ (a.wire order)[0] = 127
  isMulticast : a.isMulticast order = true ↔
    224 ≤ (a.wire order)[0].toNat ∧ (a.wire order)[0].toNat < 240
  isUnspecified : a.isUnspecified = true ↔ a.wire order = Vector.replicate 4 0

/-- What the constructors and the static functions put on the wire. -/
structure ConstructsWire (order : ByteOrder) : Prop where
  bytes (addr : V4.AddressByteArray) : (ofByteArray order addr).wire order = addr
  number (host : BitVec 32) :
    ((ofHostOrder order host).wire order).toList = store (w := 4) .bigEndian host
  number_toUint (host : BitVec 32) : (ofHostOrder order host).toUint order = host
  wire_loopback : (loopback order).wire order = #v[127, 0, 0, 1]
  wire_broadcast : (broadcast order).wire order = #v[255, 255, 255, 255]

theorem toUint_ofHostOrder (order : ByteOrder) (host : BitVec 32) :
    (ofHostOrder order host).toUint order = host := by
  have hbytes : hostBytes ((ofHostOrder order host).toUint order) = hostBytes host := by
    rw [← wire_eq_hostBytes, wire_ofHostOrder]
  have hload := congrArg (fun bytes => load .bigEndian 4 bytes.toList) hbytes
  simp only [toList_hostBytes] at hload
  rw [load_store, load_store] at hload
  exact hload

/-- `operator<=>` is an order of the addresses as numbers in host order on big-endian hosts only. -/
theorem cmp_eq_compare_toUint_iff (order : ByteOrder) :
    (∀ a b : AddressV4, a.cmp b = compare (a.toUint order) (b.toUint order)) ↔
      order = .bigEndian := by
  constructor
  · intro h
    cases order with
    | bigEndian => rfl
    | littleEndian =>
      -- `0.0.0.2` and `1.0.0.0`
      have hcmp := h ⟨0x02000000#32⟩ ⟨0x00000001#32⟩
      exact absurd hcmp (by decide)
  · rintro rfl a b
    rfl

/-- On every host, addresses agree with the wire, and numbers in host order and bytes get there with
the most significant byte first. Addresses are ordered as these numbers if and only if the host is
big-endian. -/
theorem agreesWithWire (order : ByteOrder) :
    (∀ a, AgreesWithWire order a) ∧ ConstructsWire order ∧
      ((∀ a b : AddressV4, a.cmp b = compare (a.toUint order) (b.toUint order)) ↔
        order = .bigEndian) := by
  refine ⟨fun a => ?_, ?_, cmp_eq_compare_toUint_iff order⟩
  · refine ⟨rfl, toBytesConstant_eq_wire order a, toUint_eq_load order a, ?_, rfl, ?_, fun b => ?_,
      fun b => ?_, isLoopback_iff, isMulticast_iff, isUnspecified_iff⟩
    · rw [← wire_inj order, wire_ofHostOrder, wire_eq_hostBytes]
    · rw [← wire_inj order, wire_ofByteArray, toBytes]
    · rw [beq_iff, wire_inj]
    · rw [wire_inj, cmp_eq_iff]
  · refine ⟨wire_ofByteArray order, fun host => ?_, toUint_ofHostOrder order, ?_, ?_⟩
    · rw [wire_ofHostOrder, toList_hostBytes]
    · rw [loopback, wire_ofHostOrder]
      decide
    · rw [broadcast, wire_ofHostOrder]
      decide

end AddressV4

end Asrt.Socket.IP
