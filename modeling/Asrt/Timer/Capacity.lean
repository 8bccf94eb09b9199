import Asrt.Timer.Queue
import Asrt.ToMathlib.Machine

/-!
# The capacity of the timer table

`GetNextAvailableTag()` refuses a tag once `tag_end_` exceeds `kMaxTimerCount`, which is the size of
the table. It hands out the tag `kMaxTimerCount`, one past the end of the table, when all others are
taken, and from then on it refuses every request, also when tags have been recycled.

A tag is live from the `Reserve()` that returns it to the `Dequeue()` that recycles it; to recycle a
tag twice is undefined behaviour by the comment of `RecycleTimerTag()`, so only live tags are
dequeued.
-/

namespace Asrt.Timer.Capacity

/-- The timer queue and its live tags. -/
structure State (H : Type) where
  queue : TimerQueue H := {}
  /-- Ghost: the tags that were reserved and not yet dequeued. -/
  live : List TimerTag := []

/-- The calls of the clients. -/
inductive Action (H : Type)
  /-- `Reserve()` -/
  | reserve (handler : H)
  /-- `Dequeue()` -/
  | dequeue (timer : TimerTag) (settime : Bool) (stale : TimerTag)
deriving DecidableEq, Repr

namespace State

variable {H : Type} {σ σ' : State H}

/-- `Reserve()` -/
def reserve (σ : State H) (handler : H) : State H :=
  match σ.queue.reserve handler with
  | (queue, .ok tag) => { queue, live := tag :: σ.live }
  -- `capacity_exceeded`
  | (queue, .error _) => { σ with queue }

/-- `Dequeue()` -/
def dequeue (σ : State H) (timer : TimerTag) (settime : Bool) (stale : TimerTag) : State H where
  queue := (σ.queue.dequeue timer settime stale).1
  live := σ.live.erase timer

/-- The step labelled by an action, if it is enabled. -/
def step (σ : State H) : Action H → Option (State H)
  | .reserve handler => some (σ.reserve handler)
  | .dequeue timer settime stale =>
    if timer ∈ σ.live then some (σ.dequeue timer settime stale) else none

/-- `Reserve()` returns an index of the table, and it fails exactly if as many tags are live as the
table has entries. -/
structure ReserveCorrect (σ : State H) (handler : H) : Prop where
  inBounds : ∀ tag, (σ.queue.reserve handler).2 = .ok tag → tag < kMaxTimerCount
  exceeded : (σ.queue.reserve handler).2 = .error .capacityExceeded ↔
    σ.live.length = kMaxTimerCount

end State

/-- The timer queue as a machine. -/
def machine (H : Type) : ToMathlib.Machine (State H) (Action H) where
  init σ := σ = {}
  step := State.step

namespace State

variable {H : Type} {σ σ' : State H}

/-- What a call of `Reserve()` has to return. -/
def Correct (σ : State H) : Action H → Prop
  | .reserve handler => σ.ReserveCorrect handler
  | .dequeue _ _ _ => True

/-- The condition on a step: `Reserve()` is called while the table has room. -/
def HasRoom (σ : State H) : Action H → Prop
  | .reserve _ => σ.live.length < kMaxTimerCount
  | .dequeue _ _ _ => True

/-- The invariant: the tags below the end are live or recycled, once each, the end is within the
table, and no timer was armed. -/
structure Inv (σ : State H) : Prop where
  partition : (σ.live ++ σ.queue.timerTagRecycleBin).Perm (List.range σ.queue.tagEnd)
  capacity : σ.queue.tagEnd ≤ kMaxTimerCount
  unarmed : ∀ tag, (σ.queue.timers tag).isValid = false

/-- Every tag below the end is counted. -/
theorem Inv.length (h : σ.Inv) :
    σ.live.length + σ.queue.timerTagRecycleBin.length = σ.queue.tagEnd := by
  simpa using h.partition.length_eq

/-- `Reserve()` does what it should exactly if the table has room. -/
theorem Inv.reserveCorrect_iff (h : σ.Inv) (handler : H) :
    σ.ReserveCorrect handler ↔ σ.live.length < kMaxTimerCount := by
  have hlength := h.length
  have hcapacity := h.capacity
  rcases σ.queue.reserve_cases handler with ⟨tag, rest, hbin, heq⟩ | ⟨hbin, heq⟩ | ⟨hfull, -⟩
  · -- a recycled tag was handed out before
    have htag : tag < σ.queue.tagEnd := by
      refine List.mem_range.mp (h.partition.subset ?_)
      simp [hbin]
    have hroom : σ.live.length < kMaxTimerCount := by
      rw [hbin, List.length_cons] at hlength
      omega
    refine iff_of_true ⟨?_, ?_⟩ hroom
    · rintro _ hok
      rw [heq] at hok
      obtain rfl : tag = _ := Except.ok.inj hok
      exact Nat.lt_of_lt_of_le htag hcapacity
    · rw [heq]
      exact iff_of_false nofun (Nat.ne_of_lt hroom)
  · -- a new tag is an index of the table exactly if the table has room
    rw [hbin, List.length_nil, Nat.add_zero] at hlength
    constructor
    · intro hcorrect
      rw [hlength]
      exact hcorrect.inBounds _ (by rw [heq])
    · intro hroom
      refine ⟨?_, ?_⟩
      · rintro _ hok
        rw [heq] at hok
        obtain rfl : σ.queue.tagEnd = _ := Except.ok.inj hok
        exact hlength ▸ hroom
      · rw [heq]
        exact iff_of_false nofun (Nat.ne_of_lt hroom)
  · -- the end has not passed the table
    omega

/-- `Reserve()` keeps the invariant while the table has room. -/
theorem Inv.reserve (h : σ.Inv) {handler : H} (hroom : σ.live.length < kMaxTimerCount) :
    (σ.reserve handler).Inv := by
  have hlength := h.length
  have hpartition := h.partition
  have hcapacity := h.capacity
  have hunarmed : ∀ tag t : TimerTag, (Function.update σ.queue.timers tag
      { σ.queue.timers tag with handler := some handler, inProgress := false } t).isValid =
        false := by
    intro tag t
    by_cases ht : t = tag
    · subst ht
      simpa using h.unarmed t
    · simpa [ht] using h.unarmed t
  rcases σ.queue.reserve_cases handler with ⟨tag, rest, hbin, heq⟩ | ⟨hbin, heq⟩ | ⟨hfull, -⟩
  · -- a recycled tag moves from the bin to the live ones
    rw [hbin] at hpartition
    rw [State.reserve, heq]
    exact ⟨List.perm_middle.symm.trans hpartition, hcapacity, hunarmed tag⟩
  · -- a new tag is the next of the range
    rw [hbin, List.append_nil] at hpartition
    rw [hbin, List.length_nil, Nat.add_zero] at hlength
    rw [State.reserve, heq]
    refine ⟨?_, by dsimp only [TimerQueue.setTimer]; omega, hunarmed _⟩
    simp only [TimerQueue.setTimer, hbin, List.append_nil, List.range_succ]
    exact (hpartition.cons _).trans (List.perm_append_singleton _ _).symm
  · omega

/-- One more tag is live after a `Reserve()`. -/
theorem Inv.length_reserve (h : σ.Inv) (handler : H) :
    (σ.reserve handler).live.length = σ.live.length + 1 := by
  have hcapacity := h.capacity
  rcases σ.queue.reserve_cases handler with ⟨tag, rest, -, heq⟩ | ⟨-, heq⟩ | ⟨hfull, -⟩
  · rw [State.reserve, heq]
    rfl
  · rw [State.reserve, heq]
    rfl
  · omega

/-- `Dequeue()` of a live tag keeps the invariant. -/
theorem Inv.dequeue (h : σ.Inv) {timer : TimerTag} (hlive : timer ∈ σ.live) (settime : Bool)
    (stale : TimerTag) : (σ.dequeue timer settime stale).Inv := by
  rw [State.dequeue, TimerQueue.dequeue_of_not_valid (h.unarmed timer)]
  refine ⟨?_, h.capacity, h.unarmed⟩
  simp only [TimerQueue.recycleTimerTag]
  rw [← List.append_assoc]
  -- the tag moves from the live ones to the end of the bin
  refine (List.perm_append_singleton _ _).trans (List.Perm.trans ?_ h.partition)
  exact (List.perm_cons_erase hlive).symm.append_right _

/-- One step keeps the invariant. -/
theorem Inv.step (h : σ.Inv) {a : Action H} (hC : σ.HasRoom a) (hσ' : σ.step a = some σ') :
    σ'.Inv := by
  cases a with
  | reserve handler =>
    obtain rfl := Option.some.inj hσ'
    exact h.reserve hC
  | dequeue timer settime stale =>
    obtain ⟨hlive, ⟨⟩⟩ := Option.ite_none_right_eq_some.mp hσ'
    exact h.dequeue hlive settime stale

/-- Nothing is reserved yet. -/
theorem Inv.init : Inv ({} : State H) where
  partition := .refl _
  capacity := Nat.zero_le _
  unarmed _ := rfl

/-- Whatever is live, enough calls of `Reserve()` find the table full. -/
theorem Inv.not_along_replicate (h : σ.Inv) (handler : H) {n : ℕ}
    (hn : σ.live.length + n = kMaxTimerCount) :
    ¬ (machine H).Along (fun σ a _ => σ.Correct a) σ
      (List.replicate (n + 1) (.reserve handler)) := by
  intro hcorrect
  -- `n` calls still find room, the last one does not
  induction n generalizing σ with
  | zero =>
    have hroom := (h.reserveCorrect_iff handler).mp (hcorrect _ rfl).1
    omega
  | succ n ih =>
    obtain ⟨-, hrest⟩ := hcorrect _ rfl
    have hlength := h.length_reserve handler
    exact ih (h.reserve (by omega)) (by omega) hrest

end State

/-! ## The result -/

/-- In every run of `Reserve()` and `Dequeue()`, each `Reserve()` returns an index of the table or
finds it full, and that rightly, exactly if none of them is called when the table is full. -/
theorem reserve_capacity_iff {H : Type} (calls : List (Action H)) :
    (machine H).Along (fun σ a _ => σ.Correct a) {} calls ↔
      (machine H).Along (fun σ a _ => σ.HasRoom a) {} calls := by
  have hiff : ∀ σ : State H, σ.Inv → ∀ a, σ.Correct a ↔ σ.HasRoom a := by
    intro σ h a
    cases a with
    | reserve handler => exact h.reserveCorrect_iff handler
    | dequeue timer settime stale => exact Iff.rfl
  refine ToMathlib.Machine.along_iff_of_invariant (I := State.Inv) State.Inv.init ?_ ?_
  · intro σ a σ' h _
    exact hiff σ h a
  · intro σ a σ' h hσ' hcorrect
    exact h.step ((hiff σ h a).mp hcorrect) hσ'

/-- With all tags of the table live, the next `Reserve()` returns a tag one past its end. -/
theorem reserve_capacity_full :
    ¬ (machine Unit).Along (fun σ a _ => σ.Correct a) {} (List.replicate 255 (.reserve ())) :=
  State.Inv.init.not_along_replicate () (n := 254) rfl

end Asrt.Timer.Capacity
