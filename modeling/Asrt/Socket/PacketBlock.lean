import Mathlib.Algebra.Ring.Nat
import Mathlib.Data.List.Basic
import Mathlib.Logic.Function.Iterate

/-!
# The packets of a block

`MmapRingBlockExp` and its `Iterator` (`socket/basic_packet_socket.hpp`). The packets of a block are
linked by their offsets. The iterator counts down the packets that are left and becomes null when it
gets to zero; this is what it is compared with.

A pointer to a packet is its address, if it is not null. The offsets are read from memory, which is
an argument.

## Main results

- `visits_countdown`: an iterator with `m + 1` packets left visits that many, where the countdown
  from zero starts with a wrap-around to `2 ^ 32`.
- `visits_of_numPkts_eq_zero`: so a loop over an empty block visits `2 ^ 32` packets.
-/

namespace Asrt.Socket.PacketBlock

/-- `tp_next_offset` of the packet at an address. -/
abbrev Offsets := ℕ → BitVec 32

/-- `GetNextPacket()` -/
def getNextPacket (tpNextOffset : Offsets) (packet : ℕ) : ℕ :=
  packet + (tpNextOffset packet).toNat

/-- `MmapRingBlock`, the header of a block at its address. -/
structure MmapRingBlock where
  address : ℕ
  /-- `offset_to_first_pkt` -/
  offsetToFirstPkt : BitVec 32
  /-- `num_pkts` -/
  numPkts : BitVec 32
deriving DecidableEq, Repr

/-- `MmapRingBlockExp::Iterator` -/
structure Iterator where
  /-- `start_`, `none` for null. -/
  start : Option ℕ
  /-- `max_incr_` -/
  maxIncr : BitVec 32
deriving DecidableEq, Repr

namespace Iterator

/-- `operator*`. It asserts that the packet is not null. -/
def deref (it : Iterator) : Option ℕ := it.start

/-- `operator++()`. It asserts that the packet is not null. -/
def preIncrement (tpNextOffset : Offsets) (it : Iterator) : Option Iterator :=
  match it.start with
  | none => none
  | some packet =>
    let maxIncr := it.maxIncr - 1
    some ⟨if maxIncr ≠ 0 then some (getNextPacket tpNextOffset packet) else none, maxIncr⟩

/-- `operator++(int)`: the iterator that is returned, and the one that is left. -/
def postIncrement (tpNextOffset : Offsets) (it : Iterator) : Option (Iterator × Iterator) :=
  match it.preIncrement tpNextOffset with
  | none => none
  | some it' => some (it, it')

/-- `operator==` -/
def beq (it it' : Iterator) : Bool := it.start == it'.start

end Iterator

namespace MmapRingBlock

/-- `Front()`, which is `GetFirstPacketInBlock()`. -/
def front (block : MmapRingBlock) : ℕ := block.address + block.offsetToFirstPkt.toNat

/-- `size()`, which is `GetPacketCountInBlock()`. -/
def size (block : MmapRingBlock) : BitVec 32 := block.numPkts

/-- `begin()` -/
def begin (block : MmapRingBlock) : Iterator := ⟨some block.front, block.size⟩

/-- `end()` -/
def end_ (_ : MmapRingBlock) : Iterator := ⟨none, 0⟩

/-- The packet that is reached from the first one over `k` offsets. -/
def packet (tpNextOffset : Offsets) (block : MmapRingBlock) (k : ℕ) : ℕ :=
  (getNextPacket tpNextOffset)^[k] block.front

end MmapRingBlock

/-! ## Loops over a block -/

/-- The operator with which a loop goes on to the next packet. -/
inductive Increment
  | pre
  | post
deriving DecidableEq, Repr

/-- One iteration: the packet that is visited and the iterator after it. With the postfix operator
the packet is taken from the iterator that it returns (`*it++`). -/
def iteration (tpNextOffset : Offsets) (it : Iterator) : Increment → Option (ℕ × Iterator)
  | .pre => do
    let packet ← it.deref
    let it' ← it.preIncrement tpNextOffset
    return (packet, it')
  | .post => do
    let (tmp, it') ← it.postIncrement tpNextOffset
    let packet ← tmp.deref
    return (packet, it')

/-- A loop from the iterator `it` comes to its end after visiting the given packets. -/
inductive Visits (tpNextOffset : Offsets) (block : MmapRingBlock) (increment : Increment) :
    Iterator → List ℕ → Prop
  | done {it : Iterator} (h : it.beq block.end_ = true) :
      Visits tpNextOffset block increment it []
  | visit {it it' : Iterator} {packet : ℕ} {packets : List ℕ} (h : it.beq block.end_ = false)
      (hit : iteration tpNextOffset it increment = some (packet, it'))
      (hrest : Visits tpNextOffset block increment it' packets) :
      Visits tpNextOffset block increment it (packet :: packets)

variable {tpNextOffset : Offsets} {block : MmapRingBlock} {increment : Increment}

/-- An iteration from a packet visits it with either operator. -/
theorem iteration_some (packet : ℕ) (maxIncr : BitVec 32) :
    iteration tpNextOffset ⟨some packet, maxIncr⟩ increment = some (packet,
      ⟨if maxIncr - 1 ≠ 0 then some (getNextPacket tpNextOffset packet) else none,
        maxIncr - 1⟩) := by
  cases increment with
  | pre => rfl
  | post => rfl

/-- The packets from one on are itself and those from the next one on. -/
theorem map_iterate_range_succ {α : Type*} (f : α → α) (x : α) (m : ℕ) :
    (List.range (m + 1)).map (fun k => f^[k] x) = x :: (List.range m).map fun k => f^[k] (f x) := by
  rw [List.range_succ_eq_map, List.map_cons, List.map_map]
  rfl

/-- An iterator with `m + 1` packets left visits that many and ends. The number fits into `2 ^ 32`
steps of the countdown, of which the one from zero is the longest. -/
theorem visits_countdown {m : ℕ} (hm : m + 1 ≤ 2 ^ 32) (packet : ℕ) :
    Visits tpNextOffset block increment ⟨some packet, BitVec.ofNat 32 (m + 1)⟩
      ((List.range (m + 1)).map fun k => (getNextPacket tpNextOffset)^[k] packet) := by
  induction m generalizing packet with
  | zero =>
    refine .visit rfl (iteration_some _ _) ?_
    exact .done rfl
  | succ m ih =>
    rw [map_iterate_range_succ]
    refine .visit rfl (iteration_some _ _) ?_
    have hsub : BitVec.ofNat 32 (m + 1 + 1) - 1 = BitVec.ofNat 32 (m + 1) := by
      rw [BitVec.ofNat_add (m + 1) 1]
      exact BitVec.add_sub_cancel _ _
    have hne : BitVec.ofNat 32 (m + 1) ≠ 0 := by
      intro heq
      have hzero : (m + 1) % 2 ^ 32 = 0 := congrArg BitVec.toNat heq
      omega
    rw [hsub, if_pos hne]
    exact ih (by omega) _

/-- A loop over an empty block ends only when the count has wrapped around. -/
theorem visits_of_numPkts_eq_zero (h : block.numPkts = 0) :
    Visits tpNextOffset block increment block.begin
      ((List.range (2 ^ 32)).map (block.packet tpNextOffset)) := by
  obtain ⟨m, hm⟩ : ∃ m, 2 ^ 32 = m + 1 := ⟨2 ^ 32 - 1, rfl⟩
  have hbegin : block.begin = ⟨some block.front, BitVec.ofNat 32 (m + 1)⟩ := by
    rw [← hm, MmapRingBlock.begin, MmapRingBlock.size, h]
    rfl
  rw [hbegin, hm]
  exact visits_countdown (Nat.le_of_eq hm.symm) block.front

/-- A loop over a block visits exactly the packets of the block and ends, unless the block is
empty. -/
theorem visits_packets_iff (tpNextOffset : Offsets) (block : MmapRingBlock)
    (increment : Increment) :
    Visits tpNextOffset block increment block.begin
      ((List.range block.numPkts.toNat).map (block.packet tpNextOffset)) ↔ block.numPkts ≠ 0 := by
  constructor
  · intro h hzero
    rw [hzero] at h
    -- the iterator starts at the first packet even if there is none
    cases h with
    | done hend => cases hend
  · intro hne
    obtain ⟨m, hm⟩ : ∃ m, block.numPkts.toNat = m + 1 := by
      apply Nat.exists_eq_succ_of_ne_zero
      intro hzero
      exact hne (BitVec.eq_of_toNat_eq hzero)
    have hlt : block.numPkts.toNat < 2 ^ 32 := block.numPkts.isLt
    have hbegin : block.begin = ⟨some block.front, BitVec.ofNat 32 (m + 1)⟩ := by
      rw [← hm, BitVec.ofNat_toNat, BitVec.setWidth_eq]
      rfl
    rw [hbegin, hm]
    exact visits_countdown (by omega) block.front

/-- A block that was retired without a packet: a loop over it visits `2 ^ 32` packets. -/
theorem not_visits_empty_block :
    ¬ Visits (fun _ => 48) ⟨4096, 48, 0⟩ .pre (MmapRingBlock.mk 4096 48 0).begin [] ∧
    Visits (fun _ => 48) ⟨4096, 48, 0⟩ .pre (MmapRingBlock.mk 4096 48 0).begin
      ((List.range (2 ^ 32)).map ((MmapRingBlock.mk 4096 48 0).packet fun _ => 48)) := by
  constructor
  · intro h
    cases h with
    | done hend => cases hend
  · exact visits_of_numPkts_eq_zero rfl

end Asrt.Socket.PacketBlock
