import Asrt.ToMathlib.Machine
import Mathlib.Data.List.TakeWhile

/-!
# Unix domain endpoints

`Unix::UnixDomainEndpoint` (`socket/unix_domain_endpoint.hpp`): a socket address with the length of
its path. An endpoint gets its content from a path, from the name of a socket
(`GetLocalEndpoint()` and `GetRemoteEndpoint()` of `socket/basic_socket.hpp`), or from an accepted
peer (`DoAccept()` of `impl/basic_acceptor_socket.ipp`), and gives it to the kernel as a name again.

A path is given with its terminating zero, but read back without it. The same is done to an abstract
name that ends with a zero. `accept4()` writes to as many bytes as the endpoint had before, and its
length stays as it was.

## Main results

- `names_iff`: the runs in which an endpoint always names what it was given.
-/

namespace Asrt.Socket.Unix

open ToMathlib

/-- `AF_UNIX` -/
def AF_UNIX : BitVec 16 := 1

/-- `sizeof(sun_path)` -/
def sunPathSize : ℕ := 108

/-- `offsetof(sockaddr_un, sun_path)` -/
def sunPathOffset : ℕ := 2

/-- `sun_path` -/
abbrev SunPath := Vector UInt8 sunPathSize

/-- `sockaddr_un` -/
structure SockAddrUn where
  /-- `sun_family` -/
  sunFamily : BitVec 16 := 0
  /-- `sun_path` -/
  sunPath : SunPath := Vector.replicate _ 0
deriving DecidableEq, Repr

/-- The path after some bytes were written to its start, as far as there is room. -/
def SunPath.write (bytes : List UInt8) (path : SunPath) : SunPath :=
  ⟨(bytes.take sunPathSize ++ path.toList.drop bytes.length).toArray, by
    have hlength : path.toList.length = sunPathSize := path.length_toList
    rw [List.size_toArray, List.length_append, List.length_take, List.length_drop, hlength]
    omega⟩

/-! ## The kernel -/

/-- What a socket is bound to. -/
inductive Name
  | unnamed
  | pathname (path : List UInt8)
  /-- An abstract name, without the zero that it begins with. -/
  | abstract (name : List UInt8)
deriving DecidableEq, Repr

namespace Name

/-- The name fits into an address, and a pathname is not empty and has no zero. -/
def Valid : Name → Prop
  | unnamed => True
  | pathname path => path ≠ [] ∧ 0 ∉ path ∧ path.length ≤ sunPathSize
  | abstract name => name.length < sunPathSize

instance : (name : Name) → Decidable name.Valid
  | unnamed => inferInstanceAs (Decidable True)
  | pathname _ => inferInstanceAs (Decidable (_ ∧ _))
  | abstract _ => inferInstanceAs (Decidable (_ < _))

/-- What the kernel returns as the path of a name: a pathname has a terminating zero. -/
def bytes : Name → List UInt8
  | unnamed => []
  | pathname path => path ++ [0]
  | abstract name => 0 :: name

/-- A path of `len` bytes is as long as the name. A pathname ends at its zero. -/
def HasLength (len : ℕ) : Name → Prop
  | unnamed => len = 0
  | pathname path => path.length ≤ len
  | abstract name => len = name.length + 1

/-- The name is not an abstract one that ends with a zero. -/
def ReadsBack : Name → Prop
  | unnamed | pathname _ => True
  | abstract name => name.getLast?.getD 0 ≠ 0

/-- What the kernel takes a path of a certain length for. -/
def ofBytes : List UInt8 → Name
  | [] => unnamed
  | byte :: bytes =>
    if byte = 0 then abstract bytes else pathname ((byte :: bytes).takeWhile (· ≠ 0))

end Name

/-- What the kernel takes an address for, if it is valid. -/
def nameOf (addr : SockAddrUn) (len : ℕ) : Option Name :=
  if addr.sunFamily = AF_UNIX ∧ sunPathOffset ≤ len ∧ len ≤ sunPathOffset + sunPathSize then
    some (.ofBytes (addr.sunPath.toList.take (len - sunPathOffset)))
  else none

/-- `getsockname()`, `getpeername()` and `accept4()` write a name to `size` bytes, which hold at
least the family. -/
def writeName (name : Name) (size : ℕ) (addr : SockAddrUn) : SockAddrUn where
  sunFamily := AF_UNIX
  sunPath := addr.sunPath.write (name.bytes.take (size - sunPathOffset))

/-- The length that they return. -/
def lengthOf (name : Name) : ℕ := sunPathOffset + name.bytes.length

/-! ## The endpoint -/

/-- `UnixDomainEndpoint` -/
structure UnixDomainEndpoint where
  /-- `addr_` -/
  addr : SockAddrUn := {}
  /-- `path_len_` -/
  pathLen : UInt8 := 0
deriving DecidableEq, Repr

namespace UnixDomainEndpoint

/-- `capacity()` -/
def capacity : ℕ := sunPathOffset + sunPathSize

/-- `size()` -/
def size (e : UnixDomainEndpoint) : ℕ := e.pathLen.toNat + sunPathOffset

/-- What the kernel takes `DataView()` for. -/
def name (e : UnixDomainEndpoint) : Option Name := nameOf e.addr e.size

/-- `setPath_()`, which reads its argument up to the first zero. The assertion fails if there is no
room. -/
def setPath (sockpath : List UInt8) (e : UnixDomainEndpoint) : Option UnixDomainEndpoint :=
  let path := sockpath.takeWhile (· ≠ 0)
  let pathlen := path.length + 1
  if pathlen ≤ sunPathSize - 1 then
    some {
      addr := { sunFamily := AF_UNIX, sunPath := e.addr.sunPath.write (path ++ [0]) }
      pathLen := UInt8.ofNat pathlen }
  else none

/-- `resize()`. Too large a size aborts, and for the size `1` it reads outside `sun_path`. -/
def resize (newSize : ℕ) (e : UnixDomainEndpoint) : Option UnixDomainEndpoint :=
  if newSize > capacity ∨ newSize = 1 then none
  else if newSize = 0 then some { e with pathLen := 0 }
  else
    let pathLen := UInt8.ofNat (newSize - sunPathOffset)
    -- a terminating zero is not counted
    if 0 < pathLen ∧ e.addr.sunPath[pathLen.toNat - 1]? = some 0 then
      some { e with pathLen := pathLen - 1 }
    else some { e with pathLen }

/-- `GetLocalEndpoint()` and `GetRemoteEndpoint()` of a socket with a name, or of one whose name the
kernel does not return. The view that is passed is cut to what was written. -/
def ofSocket : Option Name → Option UnixDomainEndpoint
  | none => some {}
  | some name =>
    resize (min (lengthOf name) capacity) { addr := writeName name capacity ({} : SockAddrUn) }

/-- `DoAccept()` with an endpoint for the peer. -/
def accept (peer : Name) (e : UnixDomainEndpoint) : UnixDomainEndpoint :=
  { e with addr := writeName peer e.size e.addr }

/-- Where the content of an endpoint comes from. -/
inductive Source
  /-- `SetPath()`, or the constructor from a path and an assignment. -/
  | path (sockpath : List UInt8)
  /-- The assignment of the endpoint of a socket. -/
  | socket (name : Option Name)
  /-- A client is accepted. -/
  | accepted (peer : Name)
deriving DecidableEq, Repr

/-- The name that the endpoint is given. -/
def Source.name : Source → Option Name
  | path sockpath => some (.pathname (sockpath.takeWhile (· ≠ 0)))
  | socket name => name
  | accepted peer => some peer

/-- Give the endpoint another content. The kernel has valid names only. -/
def step (e : UnixDomainEndpoint) : Source → Option UnixDomainEndpoint
  | .path sockpath => e.setPath sockpath
  | .socket none => ofSocket none
  | .socket (some name) => if name.Valid then ofSocket (some name) else none
  | .accepted peer => if peer.Valid then some (e.accept peer) else none

/-- An endpoint, from its default construction on. -/
def machine : Machine UnixDomainEndpoint Source where
  init e := e = {}
  step := step

/-- A path is not empty; the abstract name of a socket does not end with a zero; and the endpoint
for an accepted client has the length of its name already. -/
def Keeps (e : UnixDomainEndpoint) : Source → Prop
  | .path sockpath => sockpath.head?.getD 0 ≠ 0
  | .socket name => ∀ n ∈ name, n.ReadsBack
  | .accepted peer => peer.HasLength e.pathLen.toNat

end UnixDomainEndpoint

/-! ## Names in memory -/

section Names

variable {name : Name} {k : ℕ}

theorem SunPath.toList_write (bytes : List UInt8) (path : SunPath) :
    (path.write bytes).toList = bytes.take sunPathSize ++ path.toList.drop bytes.length := by
  simp [SunPath.write, Vector.toList]

/-- The first bytes of a path after they were written. -/
theorem SunPath.take_write (bytes : List UInt8) (path : SunPath) (hk : k ≤ sunPathSize) :
    (path.write (bytes.take k)).toList.take k =
      (bytes ++ path.toList.drop bytes.length).take k := by
  have htake : (bytes.take k).take sunPathSize = bytes.take k := by
    rw [List.take_take, Nat.min_eq_right hk]
  rw [SunPath.toList_write, htake]
  rcases Nat.le_total k bytes.length with hle | hle
  · have hlength : (bytes.take k).length = k := List.length_take_of_le hle
    rw [List.take_append_of_le_length hlength.ge, List.take_append_of_le_length hle,
      List.take_take, Nat.min_self]
  · rw [List.take_of_length_le hle]

namespace Name

theorem ofBytes_eq_unnamed_iff {bytes : List UInt8} : ofBytes bytes = unnamed ↔ bytes = [] := by
  cases bytes with
  | nil => simp [ofBytes]
  | cons byte bytes =>
    simp only [ofBytes, reduceCtorEq, iff_false]
    split <;> simp

theorem ofBytes_zero_cons (bytes : List UInt8) : ofBytes (0 :: bytes) = abstract bytes := by
  simp [ofBytes]

theorem ofBytes_cons_of_ne {byte : UInt8} (h : byte ≠ 0) (bytes : List UInt8) :
    ofBytes (byte :: bytes) = pathname ((byte :: bytes).takeWhile (· ≠ 0)) := by
  simp only [ofBytes, h, ↓reduceIte]

/-- A path ends at its first zero, or where it is cut off. -/
theorem takeWhile_take_eq_iff {path : List UInt8} (hzero : 0 ∉ path) (rest : List UInt8) :
    ((path ++ 0 :: rest).take k).takeWhile (· ≠ 0) = path ↔ path.length ≤ k := by
  have hpos : ∀ byte ∈ path, decide (byte ≠ 0) = true := by
    intro byte hbyte
    refine decide_eq_true fun h => ?_
    exact hzero (h ▸ hbyte)
  rcases Nat.lt_or_ge k path.length with hlt | hle
  · have hself : (path.take k).takeWhile (· ≠ 0) = path.take k :=
      List.takeWhile_eq_self_iff.mpr fun byte hbyte => hpos byte (List.mem_of_mem_take hbyte)
    refine iff_of_false (fun heq => ?_) (Nat.not_le_of_lt hlt)
    rw [List.take_append_of_le_length hlt.le, hself] at heq
    have hlength := congrArg List.length heq
    rw [List.length_take] at hlength
    omega
  · refine iff_of_true ?_ hle
    rw [List.take_append, List.take_of_length_le hle, List.takeWhile_append_of_pos hpos]
    cases k - path.length with
    | zero => simp
    | succ n => simp

/-- The kernel finds a name that stands at the start of a path if it is told the right length. -/
theorem ofBytes_take_iff (h : name.Valid) {rest : List UInt8}
    (hrest : sunPathSize ≤ name.bytes.length + rest.length) (hk : k ≤ sunPathSize) :
    ofBytes ((name.bytes ++ rest).take k) = name ↔ name.HasLength k := by
  cases name with
  | unnamed =>
    rw [ofBytes_eq_unnamed_iff, List.take_eq_nil_iff, HasLength]
    refine or_iff_left ?_
    rintro hnil
    simp [bytes] at hnil hrest
    simp [hnil, sunPathSize] at hrest
  | pathname path =>
    obtain ⟨hne, hzero, -⟩ := h
    obtain ⟨byte, tail, rfl⟩ := List.exists_cons_of_ne_nil hne
    have hbyte : byte ≠ 0 := fun h => hzero (h ▸ List.mem_cons_self)
    cases k with
    | zero => simp [ofBytes, HasLength]
    | succ k =>
      rw [HasLength, ← takeWhile_take_eq_iff hzero rest, bytes, List.append_assoc,
        List.singleton_append, List.cons_append, List.take_succ_cons, ofBytes_cons_of_ne hbyte,
        pathname.injEq]
  | abstract name =>
    have hlength : sunPathSize ≤ name.length + 1 + rest.length := by
      simpa [bytes] using hrest
    cases k with
    | zero => simp [ofBytes, HasLength]
    | succ k =>
      rw [bytes, List.cons_append, List.take_succ_cons, ofBytes_zero_cons, abstract.injEq,
        HasLength, Nat.add_right_cancel_iff]
      constructor
      · intro heq
        have := congrArg List.length heq
        rw [List.length_take, List.length_append] at this
        omega
      · rintro rfl
        exact List.take_left

end Name

end Names

namespace UnixDomainEndpoint

variable {e : UnixDomainEndpoint} {name : Name} {rest : List UInt8}

/-- An endpoint whose path begins with a name. -/
theorem name_eq_iff (h : name.Valid) (hfamily : e.addr.sunFamily = AF_UNIX)
    (hlen : e.pathLen.toNat ≤ sunPathSize)
    (hrest : sunPathSize ≤ name.bytes.length + rest.length)
    (hpath : e.addr.sunPath.toList.take e.pathLen.toNat =
      (name.bytes ++ rest).take e.pathLen.toNat) : e.name = some name ↔
      name.HasLength e.pathLen.toNat := by
  have hname : e.name = some (.ofBytes ((name.bytes ++ rest).take e.pathLen.toNat)) := by
    rw [UnixDomainEndpoint.name, nameOf, if_pos, size, Nat.add_sub_cancel, hpath]
    exact ⟨hfamily, Nat.le_add_left .., by rw [size]; omega⟩
  rw [hname, Option.some.injEq, Name.ofBytes_take_iff h hrest hlen]

/-- An endpoint for an accepted client names it if it has the length of its name. -/
theorem accept_name_iff (h : name.Valid) (hlen : e.pathLen.toNat ≤ sunPathSize) :
    (e.accept name).name = some name ↔ name.HasLength e.pathLen.toNat := by
  have hrest : sunPathSize ≤
      name.bytes.length + (e.addr.sunPath.toList.drop name.bytes.length).length := by
    rw [List.length_drop, Vector.length_toList]
    omega
  refine name_eq_iff h rfl hlen hrest ?_
  · have htake := SunPath.take_write name.bytes e.addr.sunPath hlen
    simpa only [accept, writeName, size, Nat.add_sub_cancel] using htake

/-! ## Endpoints of sockets -/

/-- The length of the path that `GetLocalEndpoint()` leaves for what the kernel returns. -/
def readLength (bytes : List UInt8) : ℕ :=
  let len := min bytes.length sunPathSize
  if bytes[len - 1]? = some 0 then len - 1 else len

theorem readLength_le (bytes : List UInt8) : readLength bytes ≤ sunPathSize := by
  simp only [readLength]
  split <;> omega

/-- A byte that was written. -/
theorem getElem?_writeName {addr : SockAddrUn} {i : ℕ} (hi : i < name.bytes.length)
    (hi' : i < sunPathSize) : (writeName name capacity addr).sunPath[i]? = name.bytes[i]? := by
  rw [← Vector.getElem?_toList, writeName, SunPath.toList_write, capacity, Nat.add_sub_cancel_left,
    List.take_take, Nat.min_self, List.getElem?_append_left, List.getElem?_take_of_lt hi']
  rw [List.length_take]
  omega

theorem ofSocket_some (name : Name) : ofSocket (some name) = some {
    addr := writeName name capacity ({} : SockAddrUn)
    pathLen := UInt8.ofNat (readLength name.bytes) } := by
  obtain ⟨len, hlen⟩ : ∃ len, len = min name.bytes.length sunPathSize := ⟨_, rfl⟩
  have hle : len ≤ sunPathSize := hlen ▸ Nat.min_le_right ..
  have hle' : len ≤ name.bytes.length := hlen ▸ Nat.min_le_left ..
  have hsize : min (lengthOf name) capacity = len + sunPathOffset := by
    simp only [lengthOf, capacity, hlen]
    omega
  have hbyte : (UInt8.ofNat len).toNat = len :=
    UInt8.toNat_ofNat_of_lt' (Nat.lt_of_le_of_lt hle (by decide))
  have hpos : 0 < UInt8.ofNat len ↔ 0 < len := by
    rw [UInt8.lt_iff_toNat_lt, hbyte]
    rfl
  have hbounds : ¬ (len + sunPathOffset > capacity ∨ len + sunPathOffset = 1) := by
    simp only [capacity, sunPathOffset]
    omega
  have hzero : len + sunPathOffset ≠ 0 := by
    simp [sunPathOffset]
  simp only [ofSocket, hsize, resize, hbounds, hzero, ↓reduceIte, Nat.add_sub_cancel, hbyte, hpos,
    readLength, ← hlen]
  rcases Nat.eq_zero_or_pos len with hnone | hsome
  · -- there is nothing to read
    have hnil : name.bytes = [] := by
      refine List.eq_nil_of_length_eq_zero ?_
      simp only [sunPathSize] at hlen
      omega
    simp [hnone, hnil]
  · have hlt : len - 1 < name.bytes.length := by omega
    have hlt' : len - 1 < sunPathSize := by omega
    simp only [hsome, true_and, getElem?_writeName hlt hlt']
    split
    · have hpred : UInt8.ofNat len - 1 = UInt8.ofNat (len - 1) := by
        apply UInt8.toNat_inj.mp
        rw [UInt8.toNat_sub_of_le]
        · rw [hbyte, UInt8.toNat_ofNat_of_lt' (Nat.lt_of_lt_of_le hlt' (by decide))]
          rfl
        · rw [UInt8.le_iff_toNat_le, hbyte]
          exact hsome
      rw [hpred]
    · rfl

/-- The length that is read is that of the name, but for an abstract name that ends with a zero. -/
theorem hasLength_readLength_iff (h : name.Valid) :
    name.HasLength (readLength name.bytes) ↔ name.ReadsBack := by
  cases name with
  | unnamed => simp [Name.HasLength, Name.ReadsBack, Name.bytes, readLength]
  | pathname path =>
    obtain ⟨-, hzero, hlen⟩ := h
    refine iff_of_true ?_ trivial
    simp only [Name.HasLength, Name.bytes, readLength, List.length_append, List.length_singleton]
    rcases Nat.lt_or_eq_of_le hlen with hlt | heq
    · split <;> omega
    · -- the zero is cut off
      have hmin : min (path.length + 1) sunPathSize = path.length := by omega
      have hindex : path.length - 1 < path.length := by
        simp only [sunPathSize] at heq
        omega
      rw [hmin, List.getElem?_append_left hindex, List.getElem?_eq_getElem hindex, if_neg]
      intro hlast
      exact hzero (Option.some.inj hlast ▸ List.getElem_mem hindex)
  | abstract name =>
    have hlen : name.length < sunPathSize := h
    have hmin : min (name.length + 1) sunPathSize = name.length + 1 := by omega
    have hlast : (0 :: name)[name.length]? = some (name.getLast?.getD 0) := by
      have hcons := List.getLast?_cons (a := (0 : UInt8)) (l := name)
      rw [List.getLast?_eq_getElem?] at hcons
      simpa using hcons
    simp only [Name.HasLength, Name.ReadsBack, Name.bytes, readLength, List.length_cons, hmin,
      Nat.add_sub_cancel, hlast, Option.some.injEq]
    split
    · rename_i hzero
      exact iff_of_false (by omega) (not_not.mpr hzero)
    · rename_i hzero
      exact iff_of_true rfl hzero

/-- An endpoint that is read back names the socket, unless the name ends with a zero. -/
theorem ofSocket_name_iff (h : name.Valid) (he : ofSocket (some name) = some e) :
    e.name = some name ↔ name.ReadsBack := by
  rw [ofSocket_some, Option.some.injEq] at he
  subst he
  have hle := readLength_le name.bytes
  have hbyte : (UInt8.ofNat (readLength name.bytes)).toNat = readLength name.bytes :=
    UInt8.toNat_ofNat_of_lt' (Nat.lt_of_le_of_lt hle (by decide))
  have hlength : name.HasLength (UInt8.ofNat (readLength name.bytes)).toNat ↔ name.ReadsBack := by
    rw [hbyte]
    exact hasLength_readLength_iff h
  have hrest : sunPathSize ≤ name.bytes.length +
      (({} : SockAddrUn).sunPath.toList.drop name.bytes.length).length := by
    rw [List.length_drop, Vector.length_toList]
    omega
  refine Iff.trans (name_eq_iff h ?_ ?_ hrest ?_) hlength
  · rfl
  · rw [hbyte]
    exact hle
  · -- as much as the path holds was written
    have htake := congrArg (List.take (readLength name.bytes))
      (SunPath.take_write name.bytes ({} : SockAddrUn).sunPath (Nat.le_refl sunPathSize))
    rw [List.take_take, List.take_take, Nat.min_eq_left hle] at htake
    simpa only [writeName, capacity, Nat.add_sub_cancel_left, hbyte] using htake

/-! ## Endpoints of paths -/

/-- What an endpoint names that is made from a path. -/
theorem setPath_name {sockpath : List UInt8} {e' : UnixDomainEndpoint}
    (he : e.setPath sockpath = some e') (h : name.Valid)
    (hbytes : name.bytes = sockpath.takeWhile (· ≠ 0) ++ [0])
    (hlen : name.HasLength name.bytes.length) : e'.name = some name := by
  simp only [setPath] at he
  obtain ⟨hroom, he⟩ := Option.ite_none_right_eq_some.mp he
  have hlength : name.bytes.length = (sockpath.takeWhile (· ≠ 0)).length + 1 := by
    rw [hbytes, List.length_append, List.length_singleton]
  rw [← hbytes, ← hlength] at he
  rw [← hlength] at hroom
  have hle : name.bytes.length ≤ sunPathSize := Nat.le_trans hroom (Nat.sub_le ..)
  have hbyte : (UInt8.ofNat name.bytes.length).toNat = name.bytes.length :=
    UInt8.toNat_ofNat_of_lt' (Nat.lt_of_le_of_lt hle (by decide))
  have hrest : sunPathSize ≤
      name.bytes.length + (e.addr.sunPath.toList.drop name.bytes.length).length := by
    rw [List.length_drop, Vector.length_toList]
    omega
  obtain rfl := Option.some.inj he
  refine (name_eq_iff h rfl ?_ hrest ?_).mpr ?_
  · rw [hbyte]
    exact hle
  · have htake := SunPath.take_write name.bytes e.addr.sunPath hle
    rw [List.take_length] at htake
    rw [hbyte]
    exact htake
  · rw [hbyte]
    exact hlen

/-- An endpoint that is made from a path names it, unless the path is empty: then the terminating
zero is an abstract name. -/
theorem setPath_name_iff {sockpath : List UInt8} {e' : UnixDomainEndpoint}
    (he : e.setPath sockpath = some e') :
    e'.name = some (.pathname (sockpath.takeWhile (· ≠ 0))) ↔ sockpath.head?.getD 0 ≠ 0 := by
  have hhead : sockpath.head?.getD 0 = 0 ↔ sockpath.takeWhile (· ≠ 0) = [] := by
    cases sockpath with
    | nil => simp
    | cons byte bytes => by_cases hbyte : byte = 0 <;> simp [hbyte]
  rw [ne_eq, hhead]
  constructor
  · intro hname hnil
    have habstract : e'.name = some (.abstract []) :=
      setPath_name he (by decide) (by rw [hnil]; rfl) rfl
    rw [habstract] at hname
    cases hname
  · intro hne
    refine setPath_name he ⟨hne, ?_, ?_⟩ rfl ?_
    · intro hzero
      simpa using List.mem_takeWhile_imp hzero
    · simp only [setPath] at he
      obtain ⟨hroom, -⟩ := Option.ite_none_right_eq_some.mp he
      simp only [sunPathSize] at hroom ⊢
      omega
    · simp [Name.HasLength, Name.bytes]

/-! ## Runs -/

/-- The length of the path stays within `sun_path`. -/
theorem pathLen_le_step {a : Source} {e' : UnixDomainEndpoint}
    (h : e.pathLen.toNat ≤ sunPathSize) (he : e.step a = some e') :
    e'.pathLen.toNat ≤ sunPathSize := by
  cases a with
  | path sockpath =>
    simp only [step, setPath] at he
    obtain ⟨hroom, ⟨⟩⟩ := Option.ite_none_right_eq_some.mp he
    simp only [UInt8.toNat_ofNat', sunPathSize] at hroom ⊢
    omega
  | socket name =>
    cases name with
    | none =>
      obtain rfl := Option.some.inj he
      decide
    | some name =>
      obtain ⟨-, he⟩ := Option.ite_none_right_eq_some.mp he
      rw [ofSocket_some, Option.some.injEq] at he
      subst he
      have hle := readLength_le name.bytes
      simp only [UInt8.toNat_ofNat', sunPathSize] at hle ⊢
      omega
  | accepted peer =>
    obtain ⟨-, ⟨⟩⟩ := Option.ite_none_right_eq_some.mp he
    exact h

/-- A step leaves an endpoint that names what it was given exactly if it meets the condition. -/
theorem step_name_iff {a : Source} {e' : UnixDomainEndpoint} (h : e.pathLen.toNat ≤ sunPathSize)
    (he : e.step a = some e') : e'.name = a.name ↔ e.Keeps a := by
  cases a with
  | path sockpath => exact setPath_name_iff he
  | socket name =>
    cases name with
    | none =>
      obtain rfl := Option.some.inj he
      exact iff_of_true (by decide) (by simp [Keeps])
    | some name =>
      obtain ⟨hvalid, he⟩ := Option.ite_none_right_eq_some.mp he
      rw [Source.name, ofSocket_name_iff hvalid he]
      simp [Keeps]
  | accepted peer =>
    obtain ⟨hvalid, ⟨⟩⟩ := Option.ite_none_right_eq_some.mp he
    exact accept_name_iff hvalid h

/-- In a run of an endpoint, the kernel takes it at all times for what it was given last if and only
if: it is not given an empty path, nor the name of a socket that is abstract and ends with a zero;
and when a client is accepted, the endpoint has the length of the client's name already. -/
theorem names_iff (as : List Source) :
    machine.Along (fun _ a e => e.name = a.name) {} as ↔
      machine.Along (fun e a _ => e.Keeps a) {} as := by
  refine Machine.along_iff_of_invariant (I := fun e => e.pathLen.toNat ≤ sunPathSize)
    (Nat.zero_le _) ?_ ?_
  · intro e a e' h he
    exact step_name_iff h he
  · intro e a e' h he _
    exact pathLen_le_step h he

/-- A client that is accepted with a new endpoint is not named. -/
example : (machine.run Machine.Always {} [.accepted (.pathname [97])]).map (fun e => e.name) =
    some (some .unnamed) := by
  decide

end UnixDomainEndpoint

end Asrt.Socket.Unix
