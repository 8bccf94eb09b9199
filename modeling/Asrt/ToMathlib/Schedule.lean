import Asrt.ToMathlib.Machine
import Mathlib.Data.Set.Insert
import Mathlib.Order.Defs.LinearOrder
import Mathlib.Logic.Function.Basic

/-!
# Schedules

A schedule keeps a deadline and an interval for each key that is pending, and the keys that are
running. A key is fired at a time when it is due: its deadline has come, and no pending key has an
earlier one. A key that is running is finished, and is then pending again, an interval after a given
time, if it is still pending and its interval is not zero.

This is what a timer service is for, whatever it keeps its timers in. Deadlines and intervals are
from an arbitrary linear order with an addition.

## Main definitions

- `Schedule.Due`: when a key may be fired.
- `Schedule.machine`: schedules as a machine.
-/

namespace ToMathlib

/-- The pending keys, with their deadlines and intervals, and the running ones. -/
structure Schedule (K T : Type*) where
  pending : K → Option (T × T)
  running : Set K

namespace Schedule

variable {K T : Type*}

/-- What happens to a schedule. -/
inductive Event (K T : Type*)
  | add (k : K) (deadline interval : T)
  | cancel (k : K)
  | fire (k : K) (now : T)
  | finish (k : K) (now : T)

/-- Nothing is pending or running. -/
def empty : Schedule K T := ⟨fun _ => none, ∅⟩

section Step

variable [DecidableEq K] [LinearOrder T]

/-- The deadline of the key has come, and no pending key has an earlier one. -/
def Due (s : Schedule K T) (k : K) (now : T) : Prop :=
  ∃ p ∈ s.pending k, p.1 ≤ now ∧ ∀ k', ∀ p' ∈ s.pending k', p.1 ≤ p'.1

variable [Add T] [Zero T]

open Classical in
/-- The schedule after an event, if that is possible. -/
noncomputable def step (s : Schedule K T) : Event K T → Option (Schedule K T)
  | .add k deadline interval =>
    if s.pending k = none then
      some { s with pending := Function.update s.pending k (some (deadline, interval)) }
    else none
  | .cancel k => some { s with pending := Function.update s.pending k none }
  | .fire k now =>
    if s.Due k now ∧ k ∉ s.running then some { s with running := insert k s.running } else none
  | .finish k now =>
    if k ∈ s.running then
      some {
        pending := Function.update s.pending k
          ((s.pending k).bind fun p => if p.2 = 0 then none else some (now + p.2, p.2))
        running := s.running \ {k} }
    else none

/-- Schedules as a machine. -/
noncomputable def machine (K T : Type*) [DecidableEq K] [LinearOrder T] [Add T] [Zero T] :
    Machine (Schedule K T) (Event K T) where
  init s := s = empty
  step := step

end Step

end Schedule

end ToMathlib
