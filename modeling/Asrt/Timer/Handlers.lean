import Asrt.Timer.Queue
import Asrt.ToMathlib.Machine

/-!
# Timers and their handlers

The timer queue under any interleaving of `Reserve()`, `Enqueue()`, `Dequeue()` and expiry handling.
A handler runs with the queue's mutex released; what it does with the queue is a step like that of
any other thread. Between two handlers the loop of `HandleExpiry()` holds the mutex.

The ghost state remembers the handler that was given to the `Reserve()` call of each reservation. A
reservation ends with a call of `Dequeue()`, whatever that returns.
-/

namespace Asrt.Timer.Handlers

/-- A call of `HandleOneExpiry()` that has released the mutex. -/
structure Expiry (H : Type) where
  tag : TimerTag
  /-- The call was made by `HandleExpiry()`, not by `Enqueue()` of a zero-expiry timer. -/
  fromLoop : Bool
  /-- `prev_expiry` -/
  prevExpiry : ℕ := 0
  /-- The contents of the handler that was invoked, once it was. -/
  invoked : Option (Option H) := none
  /-- Ghost: the handler given to `Reserve()` for the timer that expires. -/
  reserved : Option H
deriving DecidableEq, Repr

/-- The timer queue and the expiries whose handlers are being called. -/
structure State (H : Type) where
  queue : TimerQueue H := {}
  expiries : List (Expiry H) := []
  /-- The loop of a `HandleExpiry()` holds the mutex. -/
  looping : Bool := false
  /-- Ghost: the handler given to `Reserve()` for the reservation of a tag. -/
  reserved : TimerTag → Option H := fun _ => none

/-- The steps of the clients, the handlers and the executor threads that run timer operations. `now`
is a reading of the clock. -/
inductive Action (H : Type)
  /-- `Reserve()` -/
  | reserve (handler : H)
  /-- `Enqueue()` -/
  | enqueue (timer : TimerTag) (expiry interval : ℕ) (settime : Bool)
  /-- `Dequeue()` -/
  | dequeue (timer : TimerTag) (settime : Bool) (stale : TimerTag)
  /-- A timer operation enters `HandleExpiry()`. -/
  | operation
  /-- The loop of `HandleExpiry()` starts to handle the next timer, or ends. -/
  | loop (now : ℕ) (settime : Bool)
  /-- The expiry at a position invokes the handler of its timer. -/
  | call (i : ℕ) (now : ℕ)
  /-- The handler of the expiry at a position returns, and `HandleOneExpiry()` ends. -/
  | finish (i : ℕ)
deriving DecidableEq, Repr

namespace State

variable {H : Type}

/-- `HandleOneExpiry()` up to the release of the mutex. -/
def beginExpiry (σ : State H) (tag : TimerTag) (fromLoop : Bool) : State H :=
  { σ with
    queue := σ.queue.beginOneExpiry tag
    expiries := { tag, fromLoop, reserved := σ.reserved tag } :: σ.expiries }

/-- `Reserve()` -/
def reserve (σ : State H) (handler : H) : State H :=
  match σ.queue.reserve handler with
  | (queue, .ok tag) =>
    { σ with queue, reserved := Function.update σ.reserved tag (some handler) }
  | (queue, .error _) => { σ with queue }

/-- `Enqueue()`: a zero-expiry timer is handled at once. -/
def enqueue (σ : State H) (timer : TimerTag) (expiry interval : ℕ) (settime : Bool) : State H :=
  if expiry = 0 then σ.beginExpiry timer false
  else { σ with queue := (σ.queue.doAddTimer timer expiry interval settime).1 }

/-- `Dequeue()` -/
def dequeue (σ : State H) (timer : TimerTag) (settime : Bool) (stale : TimerTag) : State H :=
  { σ with
    queue := (σ.queue.dequeue timer settime stale).1
    reserved := Function.update σ.reserved timer none }

/-- One turn of the loop of `HandleExpiry()`. -/
def loop (σ : State H) (now : ℕ) (settime : Bool) : State H :=
  match σ.queue.nextExpired now with
  | some tag => { σ with looping := false }.beginExpiry tag true
  | none => { σ with looping := false, queue := σ.queue.primeTimerFd settime }

/-- The step labelled by an action, if it is enabled. Every step but the call of a handler needs the
mutex. Invoking an empty handler ends the program. -/
def step (σ : State H) : Action H → Option (State H)
  | .reserve handler => if σ.looping then none else some (σ.reserve handler)
  | .enqueue timer expiry interval settime =>
    if σ.looping then none else some (σ.enqueue timer expiry interval settime)
  | .dequeue timer settime stale =>
    if σ.looping then none else some (σ.dequeue timer settime stale)
  | .operation => if σ.looping then none else some { σ with looping := true }
  | .loop now settime => if σ.looping then some (σ.loop now settime) else none
  | .call i now =>
    match σ.expiries[i]? with
    | some e =>
      if e.invoked.isNone then
        let called := { e with prevExpiry := now, invoked := some (σ.queue.timers e.tag).handler }
        some { σ with expiries := σ.expiries.set i called }
      else none
    | none => none
  | .finish i =>
    match σ.expiries[i]? with
    | some e =>
      if !σ.looping ∧ e.invoked.join.isSome then
        some { σ with
          queue := σ.queue.endOneExpiry e.tag e.prevExpiry
          expiries := σ.expiries.eraseIdx i
          looping := e.fromLoop }
      else none
    | none => none

/-- What the enabled steps do, one case for each. -/
inductive Transition (σ : State H) : Action H → State H → Prop
  | reserve {handler : H} (hidle : σ.looping = false) :
      Transition σ (.reserve handler) (σ.reserve handler)
  | expireAtOnce {timer : TimerTag} {interval : ℕ} {settime : Bool} (hidle : σ.looping = false) :
      Transition σ (.enqueue timer 0 interval settime) (σ.beginExpiry timer false)
  | enqueue {timer : TimerTag} {expiry interval : ℕ} {settime : Bool} (hidle : σ.looping = false)
      (hexpiry : expiry ≠ 0) :
      Transition σ (.enqueue timer expiry interval settime)
        { σ with queue := (σ.queue.doAddTimer timer expiry interval settime).1 }
  | dequeue {timer : TimerTag} {settime : Bool} {stale : TimerTag} (hidle : σ.looping = false) :
      Transition σ (.dequeue timer settime stale) (σ.dequeue timer settime stale)
  | operation (hidle : σ.looping = false) : Transition σ .operation { σ with looping := true }
  | expire {now : ℕ} {settime : Bool} {tag : TimerTag} (hlooping : σ.looping = true)
      (hnext : σ.queue.nextExpired now = some tag) :
      Transition σ (.loop now settime) ({ σ with looping := false }.beginExpiry tag true)
  | prime {now : ℕ} {settime : Bool} (hlooping : σ.looping = true)
      (hnext : σ.queue.nextExpired now = none) :
      Transition σ (.loop now settime)
        { σ with looping := false, queue := σ.queue.primeTimerFd settime }
  | call {i now : ℕ} {e : Expiry H} (hi : σ.expiries[i]? = some e) (hcalled : e.invoked = none) :
      Transition σ (.call i now)
        { σ with expiries := σ.expiries.set i { e with
            prevExpiry := now, invoked := some (σ.queue.timers e.tag).handler } }
  | finish {i : ℕ} {e : Expiry H} (hi : σ.expiries[i]? = some e) (hidle : σ.looping = false)
      (hcalled : e.invoked.join.isSome) :
      Transition σ (.finish i)
        { σ with
          queue := σ.queue.endOneExpiry e.tag e.prevExpiry
          expiries := σ.expiries.eraseIdx i
          looping := e.fromLoop }

/-- Every step is one of the cases. -/
theorem transition_of_step {σ σ' : State H} {a : Action H} (hσ' : σ.step a = some σ') :
    σ.Transition a σ' := by
  cases a with
  | reserve handler =>
    obtain ⟨hidle, ⟨⟩⟩ := Option.ite_none_left_eq_some.mp hσ'
    exact .reserve (by simpa using hidle)
  | enqueue timer expiry interval settime =>
    obtain ⟨hidle, ⟨⟩⟩ := Option.ite_none_left_eq_some.mp hσ'
    -- a zero-expiry timer is not queued
    simp only [State.enqueue]
    split
    · rename_i hzero
      subst hzero
      exact .expireAtOnce (by simpa using hidle)
    · exact .enqueue (by simpa using hidle) ‹_›
  | dequeue timer settime stale =>
    obtain ⟨hidle, ⟨⟩⟩ := Option.ite_none_left_eq_some.mp hσ'
    exact .dequeue (by simpa using hidle)
  | operation =>
    obtain ⟨hidle, ⟨⟩⟩ := Option.ite_none_left_eq_some.mp hσ'
    exact .operation (by simpa using hidle)
  | loop now settime =>
    obtain ⟨hlooping, ⟨⟩⟩ := Option.ite_none_right_eq_some.mp hσ'
    simp only [State.loop]
    split
    · exact .expire hlooping ‹_›
    · exact .prime hlooping ‹_›
  | call i now =>
    simp only [State.step] at hσ'
    split at hσ'
    · rename_i e hi
      obtain ⟨hcalled, ⟨⟩⟩ := Option.ite_none_right_eq_some.mp hσ'
      exact .call hi (by simpa using hcalled)
    · cases hσ'
  | finish i =>
    simp only [State.step] at hσ'
    split at hσ'
    · rename_i e hi
      obtain ⟨⟨hidle, hcalled⟩, ⟨⟩⟩ := Option.ite_none_right_eq_some.mp hσ'
      exact .finish hi (by simpa using hidle) hcalled
    · cases hσ'

end State

/-- The timer queue as a machine. -/
def machine (H : Type) : ToMathlib.Machine (State H) (Action H) where
  init σ := σ = {}
  step := State.step

/-- Every handler is where it belongs: an expiry invokes the handler that its timer was reserved
with, a reserved timer keeps its handler, and a timer that was dequeued has none left once it is not
being handled any more. -/
structure State.HandlersKept {H : Type} (σ : State H) : Prop where
  invoked : ∀ e ∈ σ.expiries, ∀ handler, e.invoked = some handler →
    handler ≠ none ∧ handler = e.reserved
  kept : ∀ tag handler, σ.reserved tag = some handler →
    (σ.queue.timers tag).handler = some handler
  released : ∀ tag, σ.reserved tag = none → (∀ e ∈ σ.expiries, e.tag ≠ tag) →
    (σ.queue.timers tag).handler = none

end Asrt.Timer.Handlers
