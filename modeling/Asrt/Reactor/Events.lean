import Mathlib.Data.Nat.Notation

/-!
# Event masks

`ReactorNS::Types::Events` (`reactor/types.hpp`): an epoll event mask together with the kind of
software event, if any. The operators work on the mask only.
-/

namespace Asrt.Reactor

/-- `EPOLLIN` -/
def EPOLLIN : BitVec 32 := 0x001

/-- `EPOLLPRI` -/
def EPOLLPRI : BitVec 32 := 0x002

/-- `EPOLLOUT` -/
def EPOLLOUT : BitVec 32 := 0x004

/-- `EPOLLET` -/
def EPOLLET : BitVec 32 := 0x80000000

/-- `Events::SoftwareEventType` -/
inductive SoftwareEventType
  | null
  | oneshot
  | persistent
deriving DecidableEq, Repr

/-- `Events` -/
structure Events where
  /-- `software_event_` -/
  softwareEvent : SoftwareEventType := .null
  /-- `event_mask_` -/
  eventMask : BitVec 32 := 0
deriving DecidableEq, Repr

namespace Events

/-- `EventType::kRead` -/
def kRead : Events := { eventMask := EPOLLIN }

/-- `EventType::kWrite` -/
def kWrite : Events := { eventMask := EPOLLOUT }

/-- `OneShotSoftwareEvent` -/
def oneShotSoftwareEvent : Events := { softwareEvent := .oneshot }

/-- `PersistentSoftwareEvent` -/
def persistentSoftwareEvent : Events := { softwareEvent := .persistent }

/-- `Events(std::uint32_t)` -/
def ofMask (mask : BitVec 32) : Events := { eventMask := mask }

/-- `Add(EpollEventType)` -/
def add (e : Events) (mask : BitVec 32) : Events := { e with eventMask := e.eventMask ||| mask }

/-- `operator+=` -/
def union (e ev : Events) : Events := e.add ev.eventMask

/-- `Consume()`, also `operator-=`. -/
def consume (e ev : Events) : Events := { e with eventMask := e.eventMask &&& ~~~ev.eventMask }

/-- `Intersection()`: a plain mask, the software part is dropped. -/
def intersection (e ev : Events) : Events := ofMask (e.eventMask &&& ev.eventMask)

/-- `Empty()` -/
def empty (e : Events) : Bool := e.eventMask = 0

/-- `HasEvent()`: any bit of the given mask is set. -/
def hasEvent (e ev : Events) : Bool := e.eventMask &&& ev.eventMask ≠ 0

/-- `HasReadEvent()` -/
def hasReadEvent (e : Events) : Bool := e.hasEvent kRead

/-- `HasWriteEvent()` -/
def hasWriteEvent (e : Events) : Bool := e.hasEvent kWrite

/-- `HasIoEvent()` -/
def hasIoEvent (e : Events) : Bool := e.hasReadEvent || e.hasWriteEvent

/-- `HasSoftwareEvent()` -/
def hasSoftwareEvent (e : Events) : Bool := e.softwareEvent ≠ .null

/-! ### Read events -/

/-- `HasReadEvent()` is about one bit of the mask. -/
theorem hasReadEvent_eq (e : Events) : e.hasReadEvent = e.eventMask.getLsbD 0 := by
  unfold hasReadEvent hasEvent kRead EPOLLIN
  rw [show (0x001 : BitVec 32) = 1#32 from rfl, BitVec.and_one_eq_setWidth_ofBool_getLsbD]
  cases e.eventMask.getLsbD 0 <;> rfl

@[simp] theorem hasReadEvent_union (e ev : Events) :
    (e.union ev).hasReadEvent = (e.hasReadEvent || ev.hasReadEvent) := by
  simp only [hasReadEvent_eq, union, add, BitVec.getLsbD_or]

@[simp] theorem hasReadEvent_intersection (e ev : Events) :
    (e.intersection ev).hasReadEvent = (e.hasReadEvent && ev.hasReadEvent) := by
  simp only [hasReadEvent_eq, intersection, ofMask, BitVec.getLsbD_and]

@[simp] theorem hasReadEvent_consume (e ev : Events) :
    (e.consume ev).hasReadEvent = (e.hasReadEvent && !ev.hasReadEvent) := by
  simp [hasReadEvent_eq, consume]

/-- What has a read event is not empty. -/
theorem empty_of_hasReadEvent {e : Events} (h : e.hasReadEvent = true) : e.empty = false := by
  rw [hasReadEvent_eq] at h
  simp only [empty, decide_eq_false_iff_not]
  intro hzero
  simp [hzero] at h

end Events

end Asrt.Reactor
