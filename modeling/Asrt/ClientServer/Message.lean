import Asrt.ToMathlib.Bytes

/-!
# Messages and their byte order

`NetworkOrder` (`socket/address_types.hpp`) and `GenericMessage2` (`client_server/message.h`). The
byte order of the host is an argument: the two ends of a connection may differ in it.

A message is its type, the length of its payload in network order and the payload with the
terminating zero byte. `ofPayload` writes these with three `memcpy`s, `commitHeaderUpdate` reads the
first two back.

## Main results

- `NetworkOrder.data_ofHost`, `NetworkOrder.toHost_ofData`: what is in memory does not depend on the
  byte order of the host.
- `GenericMessage2.dataView_ofPayload`: the bytes of a message.
- `GenericMessage2.commitHeaderUpdate_header`: the receiver reads the type and the length of the
  sender.
-/

namespace Asrt.ClientServer

open ToMathlib

variable {w : ℕ}

/-! ## Network order -/

/-- `AddressTypes::ToNetwork()` -/
def toNetwork (order : ByteOrder) (hostval : BitVec (8 * w)) : BitVec (8 * w) :=
  match order with
  | .bigEndian => hostval
  | .littleEndian => byteswap hostval

/-- `AddressTypes::ToHost()` -/
def toHost (order : ByteOrder) (netval : BitVec (8 * w)) : BitVec (8 * w) :=
  match order with
  | .bigEndian => netval
  | .littleEndian => byteswap netval

/-- `NetworkOrder<T>` for an integer type of `w` bytes. -/
structure NetworkOrder (w : ℕ) where
  /-- `rep_` -/
  rep : BitVec (8 * w) := 0
deriving DecidableEq, Repr

namespace NetworkOrder

/-- `NetworkOrder(T host)` and `FromHost()` -/
def ofHost (order : ByteOrder) (host : BitVec (8 * w)) : NetworkOrder w := ⟨toNetwork order host⟩

/-- `ToHost()` -/
def toHost (order : ByteOrder) (n : NetworkOrder w) : BitVec (8 * w) :=
  ClientServer.toHost order n.rep

/-- The bytes at `data()`. -/
def data (order : ByteOrder) (n : NetworkOrder w) : List UInt8 := store order n.rep

/-- The value after some bytes were written to `data()`. -/
def ofData (order : ByteOrder) (bytes : List UInt8) : NetworkOrder w := ⟨load order w bytes⟩

/-- A value lies in memory with its most significant byte first, on every host. -/
@[simp]
theorem data_ofHost (order : ByteOrder) (host : BitVec (8 * w)) :
    (ofHost order host).data order = store .bigEndian host := by
  cases order with
  | bigEndian => rfl
  | littleEndian => exact store_byteswap_littleEndian host

/-- Bytes from the network are read with the most significant first, on every host. -/
theorem toHost_ofData (order : ByteOrder) {bytes : List UInt8} (h : bytes.length = w) :
    (ofData order bytes : NetworkOrder w).toHost order = load .bigEndian w bytes := by
  cases order with
  | bigEndian => rfl
  | littleEndian => exact byteswap_load_littleEndian h

end NetworkOrder

/-! ## Messages -/

/-- `MessageType`, an enumeration over `uint8_t`: a cast may yield any byte. -/
structure MessageType where
  underlying : UInt8
deriving DecidableEq, Repr

namespace MessageType

def kReserved : MessageType := ⟨0⟩

def kDummy1 : MessageType := ⟨1⟩

def kDummy2 : MessageType := ⟨2⟩

end MessageType

/-- A C string: the characters before the terminating zero byte. -/
structure CString where
  chars : List UInt8
  nonzero : 0 ∉ chars
deriving DecidableEq, Repr

namespace CString

/-- `strlen()` -/
def strlen (s : CString) : ℕ := s.chars.length

/-- The string in memory. -/
def memory (s : CString) : List UInt8 := s.chars ++ [0]

theorem length_memory (s : CString) : s.memory.length = s.strlen + 1 := by
  simp [memory, strlen]

end CString

/-- `memcpy()` of some bytes into a vector, from an offset on. -/
def memcpy (dest : List UInt8) (offset : ℕ) (src : List UInt8) : List UInt8 :=
  dest.take offset ++ src ++ dest.drop (offset + src.length)

/-- Bytes are written right behind those that were written before. -/
theorem memcpy_append {written rest src : List UInt8} {offset : ℕ} (h : offset = written.length) :
    memcpy (written ++ rest) offset src = (written ++ src) ++ rest.drop src.length := by
  subst h
  simp [memcpy, List.drop_append]

/-- `GenericMessage2` -/
structure GenericMessage2 where
  /-- `data_` -/
  data : List UInt8 := []
  /-- `type_` -/
  type : MessageType := .kReserved
  /-- `payload_len_`, a `uint32_t`. -/
  payloadLen : BitVec (8 * 4) := 0
deriving DecidableEq, Repr

namespace GenericMessage2

/-- `HeaderLength()` -/
def headerLength : ℕ := 5

/-- `GenericMessage2(type, payload)`. The new size of `data_` is computed in 32 bits. -/
def ofPayload (order : ByteOrder) (type : MessageType) (payload : CString) : GenericMessage2 :=
  let payloadLen : BitVec (8 * 4) := BitVec.ofNat _ (payload.strlen + 1)
  let payloadLenNet := NetworkOrder.ofHost order payloadLen
  let data := List.replicate (BitVec.ofNat (8 * 4) headerLength + payloadLen).toNat 0
  let data := memcpy data 0 [type.underlying]
  let data := memcpy data 1 (payloadLenNet.data order)
  let data := memcpy data headerLength (payload.memory.take payloadLen.toNat)
  { data, type, payloadLen }

/-- `BodyLength()` -/
def bodyLength (m : GenericMessage2) : ℕ := m.payloadLen.toNat

/-- `HasBody()` -/
def hasBody (m : GenericMessage2) : Bool := decide (0 < m.payloadLen.toNat)

/-- `DataView()` -/
def dataView (m : GenericMessage2) : List UInt8 := m.data

/-- `Clear()`: the type and the length stay. -/
def clear (m : GenericMessage2) : GenericMessage2 := { m with data := [] }

/-- `Resize()`: the vector is cut or filled up with zeros. -/
def resize (m : GenericMessage2) (newSize : ℕ) : GenericMessage2 :=
  { m with data := m.data.take newSize ++ List.replicate (newSize - m.data.length) 0 }

/-- `CommitHeaderUpdate()` -/
def commitHeaderUpdate (order : ByteOrder) (m : GenericMessage2) : GenericMessage2 :=
  if m.data.length < headerLength then m
  else
    let payloadLength : NetworkOrder 4 := .ofData order ((m.data.drop 1).take 4)
    { m with type := ⟨m.data.getD 0 0⟩, payloadLen := payloadLength.toHost order }

end GenericMessage2

/-! ## What is sent is what is read -/

/-- A payload whose message has a size of 32 bits. -/
def CString.Sendable (payload : CString) : Prop := payload.strlen < 2 ^ 32 - 6

instance (payload : CString) : Decidable payload.Sendable :=
  inferInstanceAs (Decidable (_ < _))

namespace GenericMessage2

variable {order : ByteOrder} {type : MessageType} {payload : CString}

theorem bodyLength_ofPayload (h : payload.Sendable) :
    (ofPayload order type payload).bodyLength = payload.strlen + 1 := by
  have hlt : payload.strlen < 2 ^ 32 - 6 := h
  have hmod : (payload.strlen + 1) % 2 ^ (8 * 4) = payload.strlen + 1 := by omega
  simp only [bodyLength, ofPayload, BitVec.toNat_ofNat, hmod]

/-- The header: the type, and the length with its most significant byte first. -/
def header (m : GenericMessage2) : List UInt8 := m.type.underlying :: store .bigEndian m.payloadLen

@[simp]
theorem length_header (m : GenericMessage2) : m.header.length = headerLength := by
  simp [header, headerLength]

/-- The bytes of a message are its header and the payload with the terminating zero. -/
theorem dataView_ofPayload (h : payload.Sendable) :
    (ofPayload order type payload).dataView =
      (ofPayload order type payload).header ++ payload.memory := by
  have hlt : payload.strlen < 2 ^ 32 - 6 := h
  -- neither the length nor the size of the vector exceeds 32 bits
  have hlen : (BitVec.ofNat (8 * 4) (payload.strlen + 1)).toNat = payload.strlen + 1 := by
    rw [BitVec.toNat_ofNat]
    omega
  have hsize :
      (BitVec.ofNat (8 * 4) headerLength + BitVec.ofNat (8 * 4) (payload.strlen + 1)).toNat =
      5 + (payload.strlen + 1) := by
    rw [BitVec.toNat_add, hlen, BitVec.toNat_ofNat, headerLength]
    omega
  have hmem : payload.memory.take (payload.strlen + 1) = payload.memory := by
    rw [← CString.length_memory, List.take_length]
  have hmemlen : payload.memory.length = payload.strlen + 1 := payload.length_memory
  simp only [dataView, ofPayload, header, hsize, hlen, hmem, NetworkOrder.data_ofHost]
  -- each `memcpy` starts where the one before it has ended, and the last one ends with the vector
  rw [← List.nil_append (List.replicate _ 0),
    memcpy_append (by simp : 0 = ([] : List UInt8).length),
    memcpy_append (by simp), memcpy_append (by simp [headerLength])]
  simp [hmemlen]
  omega

/-- Whoever has received the header of a message reads its type and length from it. -/
theorem commitHeaderUpdate_header (order : ByteOrder) {m received : GenericMessage2}
    (h : received.data = m.header) :
    (received.commitHeaderUpdate order).type = m.type ∧
      (received.commitHeaderUpdate order).payloadLen = m.payloadLen := by
  have hlong : ¬ received.data.length < headerLength := by
    rw [h, length_header]
    exact Nat.lt_irrefl _
  -- the bytes behind the type are the length as the sender has stored it
  have hbytes : (received.data.drop 1).take 4 = store .bigEndian m.payloadLen := by
    rw [h, header, List.drop_succ_cons, List.drop_zero, List.take_of_length_le]
    simp
  rw [commitHeaderUpdate, if_neg hlong]
  refine ⟨?_, ?_⟩
  · simp [h, header]
  · change (NetworkOrder.ofData order _ : NetworkOrder 4).toHost order = m.payloadLen
    rw [hbytes, NetworkOrder.toHost_ofData order (length_store _ _), load_store]

end GenericMessage2

end Asrt.ClientServer
