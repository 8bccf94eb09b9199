import Asrt.Timer.Handlers

/-!
# Reading the front of the timer queue

`GetNextExpiry()` and `IsNextExpiring(TimerTag)` read the front of `queued_timers_`; both are
documented to assume that the queue is not empty. `IsNextExpiring(Expiry)` and the end of
`HandleExpiry()` look first. `DoRemoveTimer()` asks `IsNextExpiring(TimerTag)` right after it has
removed the timer, when the queue may be empty.
-/

namespace Asrt.Timer

namespace TimerQueue

variable {H : Type} {q : TimerQueue H} {timer : TimerTag}

/-- The contents of the queue for each `GetNextExpiry()` of `IsNextExpiring(Expiry)`. -/
def isNextExpiryReads (q : TimerQueue H) : List (List QueuedTimerEntry) :=
  match q.queuedTimers with
  | [] => []
  | front :: rest => [front :: rest]

/-- The contents of the queue for each `IsNextExpiring(TimerTag)` of `DoRemoveTimer()`. -/
def doRemoveTimerReads (q : TimerQueue H) (timer : TimerTag) : List (List QueuedTimerEntry) :=
  if (q.timers timer).isValid then
    match (q.invalidateTimer timer).removeTimerFromQueue timer with
    | (q, .ok ()) => [q.queuedTimers]
    | (_, .error _) => []
  else []

/-- The contents of the queue for each `GetNextExpiry()` at the end of `HandleExpiry()`. -/
def primeTimerFdReads (q : TimerQueue H) : List (List QueuedTimerEntry) :=
  match q.queuedTimers with
  | [] => []
  | front :: rest => [front :: rest]

/-- `DoRemoveTimer()` reads the front of the empty queue exactly if it has removed the only
timer. -/
theorem nil_mem_doRemoveTimerReads :
    [] ∈ q.doRemoveTimerReads timer ↔
      (q.timers timer).isValid = true ∧ q.queuedTags = [timer] := by
  unfold doRemoveTimerReads
  split
  · rename_i hvalid
    obtain ⟨queuedTimers, hperm, hremove⟩ :=
      (q.invalidateTimer timer).removeTimerFromQueue_spec timer
    have htags : (q.invalidateTimer timer).queuedTags = q.queuedTags := by
      rw [invalidateTimer_eq]
      rfl
    rw [htags] at hperm hremove
    simp only [hvalid, true_and]
    -- a valid timer that is not queued is an error, and nothing is read
    by_cases hq : timer ∈ q.queuedTags
    · rw [if_pos hq] at hremove
      simp only [hremove, List.mem_singleton]
      constructor
      · rintro rfl
        -- nothing is left
        have herase : q.queuedTags.erase timer = [] := hperm.symm.eq_nil
        rcases List.erase_eq_nil_iff.mp herase with hnil | hone
        · simp [hnil] at hq
        · exact hone
      · intro hone
        rw [hone, List.erase_cons_head] at hperm
        exact (List.map_eq_nil_iff.mp hperm.eq_nil).symm
    · rw [if_neg hq] at hremove
      simp only [hremove, List.not_mem_nil, false_iff]
      rintro hone
      simp [hone] at hq
  · rename_i hvalid
    simp [hvalid]

end TimerQueue

namespace Handlers

namespace State

variable {H : Type} {σ : State H}

/-- The contents of the queue whenever `GetNextExpiry()` or `IsNextExpiring(TimerTag)` is evaluated
in a step. -/
def frontReads (σ : State H) : Action H → List (List QueuedTimerEntry)
  | .enqueue _ expiry _ _ => if expiry = 0 then [] else σ.queue.isNextExpiryReads
  | .dequeue timer _ _ => σ.queue.doRemoveTimerReads timer
  | .loop now _ => if (σ.queue.nextExpired now).isSome then [] else σ.queue.primeTimerFdReads
  | .reserve _ | .operation | .call _ _ | .finish _ => []

/-- The front is read only while there is one. -/
def FrontRead (σ : State H) (a : Action H) : Prop :=
  ∀ queuedTimers ∈ σ.frontReads a, queuedTimers ≠ []

/-- The condition on a step: a valid timer is not dequeued while it is the only one in the queue. -/
def KeepsFront (σ : State H) : Action H → Prop
  | .dequeue timer _ _ =>
    ¬ ((σ.queue.timers timer).isValid = true ∧ σ.queue.queuedTags = [timer])
  | .reserve _ | .enqueue _ _ _ _ | .operation | .loop _ _ | .call _ _ | .finish _ => True

/-- The callers that look first never read the front of the empty queue. -/
theorem nil_notMem_reads (q : TimerQueue H) :
    [] ∉ q.isNextExpiryReads ∧ [] ∉ q.primeTimerFdReads := by
  unfold TimerQueue.isNextExpiryReads TimerQueue.primeTimerFdReads
  cases q.queuedTimers with
  | nil => simp
  | cons front rest => simp

/-- A step reads the front only while there is one exactly if it meets the condition. -/
theorem frontRead_iff (σ : State H) (a : Action H) : σ.FrontRead a ↔ σ.KeepsFront a := by
  have hiff : σ.FrontRead a ↔ [] ∉ σ.frontReads a :=
    ⟨fun h hmem => h [] hmem rfl, fun h _ hmem hnil => h (hnil ▸ hmem)⟩
  obtain ⟨hadd, hprime⟩ := nil_notMem_reads σ.queue
  rw [hiff]
  cases a with
  | dequeue timer settime stale =>
    exact not_congr TimerQueue.nil_mem_doRemoveTimerReads
  | enqueue timer expiry interval settime =>
    refine iff_of_true ?_ trivial
    simp only [frontReads]
    split
    · exact List.not_mem_nil
    · exact hadd
  | loop now settime =>
    refine iff_of_true ?_ trivial
    simp only [frontReads]
    split
    · exact List.not_mem_nil
    · exact hprime
  | reserve | operation | call | finish => exact iff_of_true List.not_mem_nil trivial

end State

/-- In every run, the front of the queue is read only while there is one exactly if no valid timer
is dequeued while it is the only one in the queue. -/
theorem front_read_iff {H : Type} (l : List (Action H)) :
    (machine H).Along (fun σ a _ => σ.FrontRead a) {} l ↔
      (machine H).Along (fun σ a _ => σ.KeepsFront a) {} l := by
  refine ToMathlib.Machine.along_iff_of_invariant (I := fun _ => True) trivial ?_ ?_
  · intro σ a _ _ _
    exact σ.frontRead_iff a
  · intro _ _ _ _ _ _
    trivial

/-- The only timer is enqueued and dequeued: `IsNextExpiring()` reads the front of the empty
queue. -/
theorem front_read_last_timer :
    ∃ l : List (Action ℕ), ((machine ℕ).run ToMathlib.Machine.Always {} l).isSome ∧
      ¬ (machine ℕ).Along (fun σ a _ => σ.FrontRead a) {} l := by
  refine ⟨[.reserve 20, .enqueue 0 10 0 true, .dequeue 0 true 0], by decide, fun hread => ?_⟩
  -- the third step
  have hdequeue := ((hread _ rfl).2 _ rfl).2 _ rfl
  exact hdequeue.1 [] (by decide) rfl

end Handlers

end Asrt.Timer
