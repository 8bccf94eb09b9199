import Asrt.ToMathlib.Machine
import Mathlib.Data.Nat.Notation

/-!
# The inbox of a polling server

`ThreadSafeQueue` (`client_server/message_queue.hpp`) between the connections, which call
`EmplaceBack()`, and the one thread that calls `ServerInterface::Process()`
(`impl/server_interface.ipp`). Each function of the queue holds its mutex, so it is one step.

`Pop()` moves the front element out and then removes the last one. If the queue has more than one
element, the last one is lost, and the front one stays behind without its value. `Process()` never
increments `msg_processed`.

## Main results

- `polling_delivery_iff`: a run hands over each message once and in order, and no call of
  `Process()` hands over too many or stops before it must, if and only if each `Pop()` finds a
  single element and each call that has handed over as many as it may finds the queue empty.
-/

namespace Asrt.ClientServer

open ToMathlib

/-- An element of the queue, or what is left of it after its value was moved out. -/
inductive Slot (T : Type*)
  | item (x : T)
  | movedFrom (x : T)
deriving DecidableEq, Repr

/-- `std::move()` out of an element. -/
def Slot.moved {T : Type*} : Slot T → Slot T
  | item x => movedFrom x
  | movedFrom x => movedFrom x

/-- Where the polling thread is. `start` is the number of messages that had been passed to
`OnMessage()` when `Process()` was called. -/
inductive Poller
  | idle
  /-- The condition of the loop is next. -/
  | checking (maxMessages msgProcessed start : ℕ)
  /-- `Pop()` is next. -/
  | popping (maxMessages msgProcessed start : ℕ)
deriving DecidableEq, Repr

/-- The inbox and the polling thread. -/
structure Polling (T : Type*) where
  /-- `queue_` -/
  queue : List (Slot T) := []
  poller : Poller := .idle
  /-- The messages that were passed to `EmplaceBack()`. -/
  enqueued : List T := []
  /-- What was passed to `OnMessage()`. -/
  onMessage : List (Slot T) := []
deriving DecidableEq, Repr

/-- The steps of the connections and of the polling thread. -/
inductive PollingAction (T : Type*)
  | emplaceBack (x : T)
  /-- `Process()` is called. -/
  | process (maxMessages : ℕ)
  /-- The condition of the loop is evaluated. -/
  | check
  /-- `Pop()` returns, and `OnMessage()` is called. -/
  | pop
deriving DecidableEq, Repr

namespace Polling

variable {T : Type*}

/-- `Pop()`, which waits while the queue is empty. -/
def pop? (queue : List (Slot T)) : Option (Slot T × List (Slot T)) :=
  match queue with
  | [] => none
  -- `std::move(queue_.front())`, then `pop_back()`
  | front :: rest => some (front, (front.moved :: rest).dropLast)

/-- Execute a step. -/
def step (s : Polling T) : PollingAction T → Option (Polling T)
  | .emplaceBack x =>
    some { s with queue := s.queue ++ [.item x], enqueued := s.enqueued ++ [x] }
  | .process maxMessages =>
    match s.poller with
    | .idle => some { s with poller := .checking maxMessages 0 s.onMessage.length }
    | .checking _ _ _ | .popping _ _ _ => none
  | .check =>
    match s.poller with
    | .checking maxMessages msgProcessed start =>
      -- only this thread pops, so the queue is still not empty at its `Pop()`
      if !s.queue.isEmpty && decide (msgProcessed < maxMessages) then
        some { s with poller := .popping maxMessages msgProcessed start }
      else some { s with poller := .idle }
    | .idle | .popping _ _ _ => none
  | .pop =>
    match s.poller with
    | .popping maxMessages msgProcessed start =>
      match pop? s.queue with
      | none => none
      | some (msg, queue) =>
        some { s with
          queue
          onMessage := s.onMessage ++ [msg]
          poller := .checking maxMessages msgProcessed start }
    | .idle | .checking _ _ _ => none

/-- The machine of the inbox, which is empty at the start. -/
def machine : Machine (Polling T) (PollingAction T) where
  init s := s = {}
  step := step

/-- The messages that the call of `Process()` has handed over, of which the given number had been
handed over before. -/
def delivered (s : Polling T) (start : ℕ) : ℕ := s.onMessage.length - start

/-- What was handed over and what is in the queue are the messages in their order. The call of
`Process()` has not handed over more than it may, and before a `Pop()` it has handed over less. -/
def Intact (s : Polling T) : Prop :=
  s.onMessage ++ s.queue = s.enqueued.map .item ∧
    match s.poller with
    | .idle => True
    | .checking maxMessages _ start => s.delivered start ≤ maxMessages
    | .popping maxMessages _ start => s.delivered start < maxMessages

/-- `Process()` goes on while there is a message and it may hand over one more, and each round hands
over one. -/
def GoesOn (s : Polling T) (a : PollingAction T) (t : Polling T) : Prop :=
  match a, s.poller with
  | .check, .checking maxMessages msgProcessed start =>
    s.queue ≠ [] → s.delivered start < maxMessages →
      t.poller = .popping maxMessages msgProcessed start
  | .pop, _ => t.onMessage.length = s.onMessage.length + 1
  | _, _ => True

/-- `Pop()` finds a single element, and the condition of the loop finds the queue empty once
`Process()` has handed over as many messages as it was called for. -/
def Single (s : Polling T) : PollingAction T → Prop
  | .emplaceBack _ | .process _ => True
  | .check =>
    match s.poller with
    | .checking maxMessages _ start =>
      0 < maxMessages → s.delivered start = maxMessages → s.queue = []
    | .idle | .popping _ _ _ => True
  | .pop => s.queue.length = 1

/-- `msg_processed` stays what it is at the start, and nothing is taken back. -/
def NotCounted (s : Polling T) : Prop :=
  match s.poller with
  | .idle => True
  | .checking _ msgProcessed start | .popping _ msgProcessed start =>
    msgProcessed = 0 ∧ start ≤ s.onMessage.length

variable {s t : Polling T} {a : PollingAction T}

/-- A `Pop()` takes the front element and leaves the others if and only if there are no others. -/
theorem dropLast_moved_cons_eq_iff {front : Slot T} {rest : List (Slot T)}
    (hitems : ∀ slot ∈ rest, ∃ x, slot = .item x) :
    (front.moved :: rest).dropLast = rest ↔ rest = [] := by
  cases rest with
  | nil => simp
  | cons slot rest =>
    simp only [List.dropLast_cons_cons, reduceCtorEq, iff_false]
    intro h
    -- what is left at the front has no value, unlike the elements of the queue
    obtain ⟨x, rfl⟩ := hitems slot List.mem_cons_self
    have hfront := (List.cons.inj h).1
    cases front with
    | item y => cases hfront
    | movedFrom y => cases hfront

/-- No step increments `msg_processed`. -/
theorem NotCounted.step (h : s.NotCounted) (hstep : s.step a = some t) : t.NotCounted := by
  cases a with
  | emplaceBack x =>
    obtain rfl := Option.some.inj hstep
    exact h
  | process maxMessages =>
    simp only [Polling.step] at hstep
    split at hstep
    · obtain rfl := Option.some.inj hstep
      exact ⟨rfl, Nat.le_refl _⟩
    · cases hstep
    · cases hstep
  | check =>
    simp only [Polling.step] at hstep
    split at hstep
    · rename_i hpoller
      simp only [NotCounted, hpoller] at h
      split at hstep
      · obtain rfl := Option.some.inj hstep
        exact h
      · obtain rfl := Option.some.inj hstep
        trivial
    · cases hstep
    · cases hstep
  | pop =>
    simp only [Polling.step] at hstep
    split at hstep
    · rename_i hpoller
      simp only [NotCounted, hpoller] at h
      split at hstep
      · cases hstep
      · obtain rfl := Option.some.inj hstep
        refine ⟨h.1, ?_⟩
        rw [List.length_append]
        exact Nat.le_add_right_of_le h.2
    · cases hstep
    · cases hstep

/-- At the condition of the loop, `Process()` goes on with any message that is left, so it stops in
time if and only if there is none left. -/
theorem Intact.check_iff (h : s.Intact) (hcount : s.NotCounted) (hstep : s.step .check = some t) :
    (t.Intact ∧ s.GoesOn .check t) ↔ s.Single .check := by
  obtain ⟨hmessages, hlimit⟩ := h
  simp only [Polling.step] at hstep
  split at hstep
  · rename_i maxMessages msgProcessed start hpoller
    simp only [NotCounted, hpoller] at hcount
    obtain ⟨rfl, -⟩ := hcount
    rw [hpoller] at hlimit
    simp only [GoesOn, Single, hpoller]
    split at hstep
    · rename_i htest
      obtain rfl := Option.some.inj hstep
      simp only [Bool.and_eq_true, Bool.not_eq_true', List.isEmpty_eq_false_iff,
        decide_eq_true_eq] at htest
      obtain ⟨hne, hpos⟩ := htest
      -- the next `Pop()` is one too many if the limit is reached
      have hdelivered : ({ s with poller := .popping maxMessages 0 start } : Polling T).delivered
          start = s.delivered start := rfl
      simp only [Intact, hmessages, hdelivered, hne, hpos, true_and, ne_eq, not_false_eq_true,
        implies_true, and_true, forall_const, imp_false]
      omega
    · rename_i htest
      obtain rfl := Option.some.inj hstep
      simp only [Bool.and_eq_true, Bool.not_eq_true', List.isEmpty_eq_false_iff,
        decide_eq_true_eq, not_and, Nat.not_lt, Nat.le_zero] at htest
      refine iff_of_true ⟨⟨hmessages, trivial⟩, fun hne hless => ?_⟩ fun hpos _ => ?_
      · rw [htest hne] at hless
        exact absurd hless (Nat.not_lt_zero _)
      · refine Decidable.byContradiction fun hne => ?_
        exact absurd (htest hne) (Nat.pos_iff_ne_zero.mp hpos)
  · cases hstep
  · cases hstep

/-- A `Pop()` hands over the message at the front and keeps the others if and only if there are no
others. -/
theorem Intact.pop_iff (h : s.Intact) (hcount : s.NotCounted) (hstep : s.step .pop = some t) :
    (t.Intact ∧ s.GoesOn .pop t) ↔ s.Single .pop := by
  obtain ⟨hmessages, hlimit⟩ := h
  simp only [Polling.step] at hstep
  split at hstep
  · rename_i maxMessages msgProcessed start hpoller
    simp only [NotCounted, hpoller] at hcount
    rw [hpoller] at hlimit
    cases hqueue : s.queue with
    | nil => simp [hqueue, pop?] at hstep
    | cons front rest =>
      simp only [hqueue, pop?, Option.some.injEq] at hstep
      subst hstep
      -- all elements of the queue still have their values
      have hitems : ∀ slot ∈ rest, ∃ x, slot = .item x := by
        intro slot hslot
        have hmem : slot ∈ s.enqueued.map Slot.item := by
          rw [← hmessages, hqueue]
          exact List.mem_append_right _ (List.mem_cons_of_mem _ hslot)
        obtain ⟨x, -, rfl⟩ := List.mem_map.mp hmem
        exact ⟨x, rfl⟩
      rw [hqueue] at hmessages
      -- the messages are in order if and only if the queue keeps what follows its front
      have hleft : s.onMessage ++ [front] ++ (front.moved :: rest).dropLast =
          s.enqueued.map .item ↔ (front.moved :: rest).dropLast = rest := by
        rw [← hmessages, List.append_assoc, List.append_cancel_left_eq, List.singleton_append]
        simp
      -- the limit was not reached before this message
      have hmay : s.onMessage.length + 1 - start ≤ maxMessages := by
        have hless : s.onMessage.length - start < maxMessages := hlimit
        omega
      simp only [Intact, delivered, GoesOn, Single, hleft, hqueue,
        dropLast_moved_cons_eq_iff hitems,
        List.length_append, List.length_cons, List.length_nil, Nat.zero_add, hmay, and_true,
        Nat.add_eq_right, List.length_eq_zero_iff]
  · cases hstep
  · cases hstep

/-- From an intact state, a step leads to an intact state and goes on if and only if it meets the
condition. -/
theorem Intact.step_iff (h : s.Intact) (hcount : s.NotCounted) (hstep : s.step a = some t) :
    (t.Intact ∧ s.GoesOn a t) ↔ s.Single a := by
  cases a with
  | emplaceBack x =>
    obtain rfl := Option.some.inj hstep
    refine iff_of_true ⟨⟨?_, h.2⟩, trivial⟩ trivial
    simp [← h.1]
  | process maxMessages =>
    simp only [step] at hstep
    split at hstep
    · obtain rfl := Option.some.inj hstep
      refine iff_of_true ⟨⟨h.1, ?_⟩, trivial⟩ trivial
      simp [delivered]
    · cases hstep
    · cases hstep
  | check => exact h.check_iff hcount hstep
  | pop => exact h.pop_iff hcount hstep

/-! ## Main result -/

/-- In a run of the inbox, each message is handed over once and in order, none is lost, and each
call of `Process()` hands over messages as long as there is one and it may, and no more, if and only
if each `Pop()` finds a single element and each call that has handed over `max_messages` messages
finds the queue empty. -/
theorem polling_delivery_iff (as : List (PollingAction T)) :
    machine.Along (fun s a t => t.Intact ∧ s.GoesOn a t) ({} : Polling T) as ↔
      machine.Along (fun s a _ => s.Single a) ({} : Polling T) as := by
  have hinit : Intact ({} : Polling T) ∧ NotCounted ({} : Polling T) := ⟨⟨rfl, trivial⟩, trivial⟩
  refine Machine.along_iff_of_invariant (I := fun s => s.Intact ∧ s.NotCounted) hinit ?_ ?_
  · intro s a t hs hstep
    exact hs.1.step_iff hs.2 hstep
  · intro s a t hs hstep ht
    exact ⟨ht.1, hs.2.step hstep⟩

/-- Two messages are in the queue when `Process(1)` is called: it hands over the first one twice,
the second time without its value, and the second one is lost. -/
theorem polling_delivery_two_messages :
    ∃ s : Polling ℕ, machine.Reachable s ∧ s.enqueued = [7, 8] ∧ s.queue = [] ∧
      s.onMessage = [.item 7, .movedFrom 7] ∧ s.poller = .checking 1 0 0 ∧ s.delivered 0 = 2 ∧
      ¬ s.Intact := by
  have hs := Machine.reachableIn_get_run (M := (machine : Machine (Polling ℕ) _))
    (C := Machine.Always)
    (l := [.emplaceBack 7, .emplaceBack 8, .process 1, .check, .pop, .check, .pop]) rfl (by decide)
  refine ⟨_, hs, by decide, by decide, by decide, by decide, by decide, ?_⟩
  intro h
  exact absurd h.1 (by decide)

end Polling

end Asrt.ClientServer
