import Mathlib.Data.Nat.Notation
import Mathlib.Logic.Function.Basic

/-!
# The services of the executors of a process

`UseReactorService()` and `UseTimerService()` construct a service of an executor on its first use
(`io_executor.ipp`). Each guards the construction by a `std::once_flag` that is a static variable of
the member function, so all executors of a process share it. The constructor of the timer service
calls `UseReactorService()` of its executor (`timer_queue.hpp`).

After the guard the service is taken out of its optional by `value()`. On an empty optional that
throws, and since the member functions are `noexcept` the process terminates; a call is `none` then.
`std::call_once` orders concurrent calls, so a process is a list of calls.

`per_instance_services_iff`: the calls of a process are served exactly if they are all made on one
instance.
-/

namespace Asrt.Services

/-- The two services of an executor. -/
inductive Service
  | reactor
  | timer
deriving DecidableEq, Repr

/-- A service object: the executor it was constructed for and its number among the constructed
objects. -/
structure Object (I : Type) where
  owner : I
  serial : ℕ
deriving DecidableEq, Repr

/-- The services of an `IO_Executor`. -/
structure Executor (I : Type) where
  /-- `reactor_service_` -/
  reactorService : Option (Object I) := none
  /-- `timer_manager_` -/
  timerManager : Option (Object I) := none
deriving DecidableEq, Repr

/-- A process: the executors and the two flags they share. -/
structure Process (I : Type) where
  /-- `reactor_init_flag` -/
  reactorInitFlag : Bool := false
  /-- `timer_init_flag` -/
  timerInitFlag : Bool := false
  executors : I → Executor I := fun _ => {}
  /-- Ghost: the number of service objects constructed. -/
  constructed : ℕ := 0

/-- A call of `UseReactorService()` or `UseTimerService()`. -/
structure Call (I : Type) where
  service : Service
  executor : I
deriving DecidableEq, Repr

variable {I : Type}

/-- The optional that holds a service. -/
def Executor.get (e : Executor I) : Service → Option (Object I)
  | .reactor => e.reactorService
  | .timer => e.timerManager

namespace Process

variable [DecidableEq I]

/-- The body of the guard of `UseReactorService()`. -/
def emplaceReactor (p : Process I) (i : I) : Process I :=
  if (p.executors i).reactorService.isSome then p
  else
    { p with
      executors := Function.update p.executors i
        { p.executors i with reactorService := some ⟨i, p.constructed⟩ }
      constructed := p.constructed + 1 }

/-- `UseReactorService()` -/
def useReactorService (p : Process I) (i : I) : Option (Object I × Process I) :=
  let p := if p.reactorInitFlag then p else { p.emplaceReactor i with reactorInitFlag := true }
  (p.executors i).reactorService.map fun object => (object, p)

/-- The body of the guard of `UseTimerService()`. The constructor of the timer service uses the
reactor service. -/
def emplaceTimer (p : Process I) (i : I) : Option (Process I) :=
  if (p.executors i).timerManager.isSome then some p
  else
    (p.useReactorService i).map fun result =>
      let p := result.2
      { p with
        executors := Function.update p.executors i
          { p.executors i with timerManager := some ⟨i, p.constructed⟩ }
        constructed := p.constructed + 1 }

/-- `UseTimerService()` -/
def useTimerService (p : Process I) (i : I) : Option (Object I × Process I) := do
  let p ← if p.timerInitFlag then some p
    else (p.emplaceTimer i).map fun p => { p with timerInitFlag := true }
  (p.executors i).timerManager.map fun object => (object, p)

/-- A call of one of the two. -/
def call (p : Process I) (c : Call I) : Option (Object I × Process I) :=
  match c.service with
  | .reactor => p.useReactorService c.executor
  | .timer => p.useTimerService c.executor

/-- A call that returns `object` and leaves `p'` serves its executor: the object is the one that
this executor holds and that was constructed for it, and an executor that held one before gets the
same one, with nothing constructed. -/
structure Serves (p : Process I) (c : Call I) (object : Object I) (p' : Process I) : Prop where
  holds : (p'.executors c.executor).get c.service = some object
  owner : object.owner = c.executor
  again : ∀ earlier, (p.executors c.executor).get c.service = some earlier →
    object = earlier ∧ p'.constructed = p.constructed

/-- Each of the calls returns and serves its executor. -/
def EachServed : Process I → List (Call I) → Prop
  | _, [] => True
  | p, c :: cs =>
    ∃ object p', p.call c = some (object, p') ∧ p.Serves c object p' ∧ p'.EachServed cs

/-- Executor `i` is the one whose calls found the flags unset. -/
structure OwnedBy (p : Process I) (i : I) : Prop where
  reactorFlag : p.reactorInitFlag = true
  reactor : ∃ object, (p.executors i).reactorService = some object ∧ object.owner = i
  timerFlag : p.timerInitFlag = (p.executors i).timerManager.isSome
  timer : ∀ object, (p.executors i).timerManager = some object → object.owner = i
  others : ∀ j, j ≠ i → p.executors j = {}

variable {p : Process I} {i j : I}

/-- A later `UseReactorService()` on the owner returns its reactor. -/
theorem OwnedBy.useReactorService (h : p.OwnedBy i) :
    ∃ object, p.useReactorService i = some (object, p) ∧ p.Serves ⟨.reactor, i⟩ object p := by
  obtain ⟨object, hobject, howner⟩ := h.reactor
  refine ⟨object, ?_, hobject, howner, fun earlier hearlier => ⟨?_, rfl⟩⟩
  · simp [Process.useReactorService, h.reactorFlag, hobject]
  · exact Option.some.inj (hobject.symm.trans hearlier)

/-- `UseTimerService()` on the owner returns its timer service, and constructs it the first time. -/
theorem OwnedBy.useTimerService (h : p.OwnedBy i) :
    ∃ object p', p.useTimerService i = some (object, p') ∧ p.Serves ⟨.timer, i⟩ object p' ∧
      p'.OwnedBy i := by
  cases htimer : (p.executors i).timerManager with
  | some object =>
    -- constructed by an earlier call
    refine ⟨object, p, ?_, ⟨htimer, h.timer object htimer, fun earlier hearlier => ⟨?_, rfl⟩⟩, h⟩
    · simp [Process.useTimerService, h.timerFlag, htimer]
    · exact Option.some.inj (htimer.symm.trans hearlier)
  | none =>
    obtain ⟨object, hcall, -⟩ := h.useReactorService
    refine ⟨⟨i, p.constructed⟩, { p with
      timerInitFlag := true
      executors := Function.update p.executors i
        { p.executors i with timerManager := some ⟨i, p.constructed⟩ }
      constructed := p.constructed + 1 }, ?_, ⟨?_, rfl, fun earlier hearlier => ?_⟩, ?_⟩
    · simp [Process.useTimerService, emplaceTimer, h.timerFlag, htimer, hcall]
    · simp [Executor.get]
    · rw [Executor.get, htimer] at hearlier
      cases hearlier
    · refine ⟨h.reactorFlag, ?_, ?_, fun object hobject => ?_, fun j hj => ?_⟩
      · simpa using h.reactor
      · simp
      · simp only [Function.update_self, Option.some.injEq] at hobject
        rw [← hobject]
      · simpa [Function.update_of_ne hj] using h.others j hj

/-- A call on the owner is served. -/
theorem OwnedBy.call_of_eq (h : p.OwnedBy i) {c : Call I} (hc : c.executor = i) :
    ∃ object p', p.call c = some (object, p') ∧ p.Serves c object p' ∧ p'.OwnedBy i := by
  obtain ⟨service, j⟩ := c
  obtain rfl : j = i := hc
  cases service with
  | reactor =>
    obtain ⟨object, hcall, hserves⟩ := h.useReactorService
    exact ⟨object, p, hcall, hserves, h⟩
  | timer => exact h.useTimerService

/-- A call on another executor ends the process: the flags are taken and its optionals are empty. -/
theorem OwnedBy.call_eq_none (h : p.OwnedBy i) {c : Call I} (hc : c.executor ≠ i) :
    p.call c = none := by
  have hempty := h.others c.executor hc
  have hreactor : p.useReactorService c.executor = none := by
    simp [Process.useReactorService, h.reactorFlag, hempty]
  unfold call
  split
  · exact hreactor
  · cases hflag : p.timerInitFlag <;>
      simp [Process.useTimerService, emplaceTimer, hflag, hempty, hreactor]

/-- The first call constructs the services of its executor. -/
theorem ownedBy_of_first_call (c : Call I) :
    ∃ object p', ({} : Process I).call c = some (object, p') ∧
      ({} : Process I).Serves c object p' ∧ p'.OwnedBy c.executor := by
  obtain ⟨service, i⟩ := c
  -- both calls begin with the reactor service
  obtain ⟨p₁, hp₁⟩ : ∃ p₁ : Process I, p₁ =
    { reactorInitFlag := true
      executors := Function.update (fun _ => {}) i { reactorService := some ⟨i, 0⟩ }
      constructed := 1 } := ⟨_, rfl⟩
  have hreactor : ({} : Process I).useReactorService i = some (⟨i, 0⟩, p₁) := by
    simp [Process.useReactorService, emplaceReactor, hp₁]
  have howned : p₁.OwnedBy i := by
    subst hp₁
    refine ⟨rfl, ⟨⟨i, 0⟩, ?_, rfl⟩, ?_, fun object hobject => ?_, fun j hj => ?_⟩
    · simp
    · simp
    · simp at hobject
    · simp [Function.update_of_ne hj]
  cases service with
  | reactor =>
    refine ⟨_, p₁, hreactor, ⟨?_, rfl, fun earlier hearlier => ?_⟩, howned⟩
    · simp [hp₁, Executor.get]
    · cases hearlier
  | timer =>
    obtain ⟨object, p', hcall, hserves, howned'⟩ := howned.useTimerService
    refine ⟨object, p', ?_, ⟨hserves.holds, hserves.owner, fun earlier hearlier => ?_⟩, howned'⟩
    · rw [← hcall]
      subst hp₁
      simp [call, Process.useTimerService, emplaceTimer, Process.useReactorService, emplaceReactor]
    · cases hearlier

/-- Once an executor owns the flags, exactly the calls on this executor are served. -/
theorem OwnedBy.eachServed_iff (h : p.OwnedBy i) (cs : List (Call I)) :
    p.EachServed cs ↔ ∀ c ∈ cs, c.executor = i := by
  induction cs generalizing p with
  | nil => simp [EachServed]
  | cons c cs ih =>
    rw [List.forall_mem_cons]
    constructor
    · rintro ⟨object, p', hcall, -, hserved⟩
      have hc : c.executor = i := by
        by_contra hc
        rw [h.call_eq_none hc] at hcall
        cases hcall
      obtain ⟨object₁, p₁, hcall₁, -, howned⟩ := h.call_of_eq hc
      rw [hcall] at hcall₁
      obtain ⟨-, rfl⟩ := Prod.mk.inj (Option.some.inj hcall₁)
      exact ⟨hc, (ih howned).mp hserved⟩
    · rintro ⟨hc, hcs⟩
      obtain ⟨object, p', hcall, hserves, howned⟩ := h.call_of_eq hc
      exact ⟨object, p', hcall, hserves, (ih howned).mpr hcs⟩

end Process

open Process in
/-- Per-instance services. The calls of a process are served, each by the object of the executor it
is made on, if and only if they are all made on one executor. -/
theorem per_instance_services_iff [DecidableEq I] (calls : List (Call I)) :
    ({} : Process I).EachServed calls ↔
      ∀ c ∈ calls, ∀ c' ∈ calls, c.executor = c'.executor := by
  cases calls with
  | nil => simp [EachServed]
  | cons c cs =>
    obtain ⟨object, p', hcall, hserves, howned⟩ := ownedBy_of_first_call c
    have hfirst : ({} : Process I).EachServed (c :: cs) ↔ p'.EachServed cs := by
      constructor
      · rintro ⟨object₁, p₁, hcall₁, -, hserved⟩
        rw [hcall] at hcall₁
        obtain ⟨-, rfl⟩ := Prod.mk.inj (Option.some.inj hcall₁)
        exact hserved
      · exact fun hserved => ⟨object, p', hcall, hserves, hserved⟩
    rw [hfirst, howned.eachServed_iff]
    constructor
    · intro hcs d hd d' hd'
      have hall : ∀ e ∈ c :: cs, e.executor = c.executor :=
        List.forall_mem_cons.mpr ⟨rfl, hcs⟩
      exact (hall d hd).trans (hall d' hd').symm
    · intro hall d hd
      exact hall d (List.mem_cons_of_mem c hd) c List.mem_cons_self

open Process in
/-- A second executor that uses its reactor service ends the process. -/
theorem per_instance_services_second_executor :
    ¬ ({} : Process (Fin 2)).EachServed [⟨.reactor, 0⟩, ⟨.reactor, 1⟩] := by
  rintro ⟨object, p, hcall, -, object', p', hcall', -⟩
  obtain ⟨-, rfl⟩ := Prod.mk.inj (Option.some.inj hcall)
  cases hcall'

end Asrt.Services
