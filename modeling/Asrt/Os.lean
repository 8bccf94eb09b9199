import Mathlib.Data.Int.Notation
import Mathlib.Data.Nat.Notation
import Mathlib.Logic.Function.Basic
import Mathlib.Tactic.SplitIfs

/-!
# The operating system below the library

What the reactor and the sockets use of the kernel: which descriptors are open and the interest list
of the epoll instance. A system call that may fail for reasons the model does not track (resource
limits, signals) reads its outcome from an argument.
-/

namespace Asrt

/-- `asrt::NativeHandle`, a file descriptor. -/
abbrev NativeHandle := ℤ

/-- `kInvalidNativeHandle` -/
def kInvalidNativeHandle : NativeHandle := -1

/-- `ErrorCode`: the errors of system calls, by their `errno`, and the members of its own that the
modelled functions return. -/
inductive ErrorCode
  | system (errno : ℕ)
  | apiError
  | capacityExceeded
  | reactorEntryInvalid
deriving DecidableEq, Repr

/-- No such entry. -/
def ENOENT : ℕ := 2

/-- Bad descriptor. -/
def EBADF : ℕ := 9

/-- Out of memory. -/
def ENOMEM : ℕ := 12

/-- Already in the list. -/
def EEXIST : ℕ := 17

/-- Invalid argument. -/
def EINVAL : ℕ := 22

/-- `::epoll_event`: an event mask and, in its data field, the tag of the operation. -/
structure EpollEvent where
  events : BitVec 32
  tag : ℕ
deriving DecidableEq, Repr

/-- The kernel: the open descriptors and the interest list of the reactor's epoll instance. -/
structure Kernel where
  isOpen : NativeHandle → Bool := fun _ => false
  interest : NativeHandle → Option EpollEvent := fun _ => none

namespace Kernel

/-- A descriptor that was not open is opened. -/
def openFd (k : Kernel) (fd : NativeHandle) : Kernel :=
  { k with isOpen := Function.update k.isOpen fd true }

/-- `close(2)`: a closed descriptor also leaves the interest list. -/
def closeFd (k : Kernel) (fd : NativeHandle) : Kernel where
  isOpen := Function.update k.isOpen fd false
  interest := Function.update k.interest fd none

/-- `EPOLL_CTL_ADD`: refused for a descriptor that is not open or already in the list, and when the
kernel lacks resources. -/
def epollAdd (k : Kernel) (fd : NativeHandle) (event : EpollEvent) (resources : Bool) :
    Except ErrorCode Kernel :=
  if !k.isOpen fd then .error (.system EBADF)
  else if (k.interest fd).isSome then .error (.system EEXIST)
  else if !resources then .error (.system ENOMEM)
  else .ok { k with interest := Function.update k.interest fd (some event) }

/-- `EPOLL_CTL_MOD`: refused for a descriptor that is not open or not in the list, and when the
kernel lacks resources. -/
def epollModify (k : Kernel) (fd : NativeHandle) (event : EpollEvent) (resources : Bool) :
    Except ErrorCode Kernel :=
  if !k.isOpen fd then .error (.system EBADF)
  else if (k.interest fd).isNone then .error (.system ENOENT)
  else if !resources then .error (.system ENOMEM)
  else .ok { k with interest := Function.update k.interest fd (some event) }

/-- `EPOLL_CTL_DEL`: refused for a descriptor that is not open or not in the list. -/
def epollRemove (k : Kernel) (fd : NativeHandle) : Except ErrorCode Kernel :=
  if !k.isOpen fd then .error (.system EBADF)
  else if (k.interest fd).isNone then .error (.system ENOENT)
  else .ok { k with interest := Function.update k.interest fd none }

variable {k k' : Kernel} {fd : NativeHandle} {event : EpollEvent} {resources : Bool}

/-- A successful `EPOLL_CTL_ADD` changes the interest in the descriptor only. -/
theorem eq_of_epollAdd (h : k.epollAdd fd event resources = .ok k') :
    k' = { k with interest := Function.update k.interest fd (some event) } := by
  unfold epollAdd at h
  split_ifs at h
  exact (Except.ok.inj h).symm

/-- A successful `EPOLL_CTL_MOD` changes the interest in the descriptor only. -/
theorem eq_of_epollModify (h : k.epollModify fd event resources = .ok k') :
    k' = { k with interest := Function.update k.interest fd (some event) } := by
  unfold epollModify at h
  split_ifs at h
  exact (Except.ok.inj h).symm

/-- `EPOLL_CTL_DEL` succeeds for an open descriptor of the interest list. -/
theorem epollRemove_eq (hopen : k.isOpen fd = true) (hint : (k.interest fd).isSome = true) :
    k.epollRemove fd = .ok { k with interest := Function.update k.interest fd none } := by
  obtain ⟨event, hevent⟩ := Option.isSome_iff_exists.mp hint
  simp [epollRemove, hopen, hevent]

end Kernel

end Asrt
