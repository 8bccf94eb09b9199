import Asrt.Timer.Clients
import Mathlib.Data.List.Perm.Subperm

/-!
# When timer tags are neither aliased nor leaked

`Dequeue()` fails for a timer that is valid but not queued, and its tag is then lost; a one-shot
task that was cancelled while its callback runs dequeues its timer a second time, and its tag is
then recycled twice; and the tag one past the end of the table is handed out but never again. In
runs without these the tags below `tag_end_` are partitioned into the tags that are reserved and the
tags in the recycle bin.
-/

namespace Asrt.Timer.Clients

namespace State

variable {σ σ' : State} {timer : TimerTag}

/-- Every tag below `tag_end_` is reserved or recycled, and that once; a recycled tag can be
reserved again. -/
structure TagsKept (σ : State) : Prop where
  partition : (σ.live ++ σ.queue.timerTagRecycleBin).Perm (List.range σ.queue.tagEnd)
  distinct : σ.live.Nodup
  reusable : ∀ tag ∈ σ.queue.timerTagRecycleBin.head?, ∀ callback,
    (σ.queue.reserve callback).2 = .ok tag

/-- `Dequeue()` will find the timer where it looks for it. -/
def Removable (σ : State) (timer : TimerTag) : Prop :=
  (σ.queue.timers timer).isValid = true → timer ∈ σ.queue.queuedTags

/-- The condition on a step. A new tag is handed out only while it is an index of the table. A timer
that is dequeued is not valid or queued, and the timerfd can be programmed. A one-shot task dequeues
its timer only if it was not cancelled before. -/
def Tidy (σ : State) : Action → Prop
  | .construct _ _ | .post _ _ _ =>
    σ.queue.timerTagRecycleBin = [] → σ.queue.tagEnd < kMaxTimerCount
  | .destroy i settime _ =>
    ∀ timer ∈ σ.waitables[i]?, σ.Removable timer.timerId ∧ settime = true
  | .cancel task settime _ => task ∈ σ.periodicJobIds → σ.Removable task ∧ settime = true
  | .remove i settime _ =>
    ∀ e ∈ σ.expiries[i]?, e.tag ∈ σ.periodicJobIds ∧ σ.Removable e.tag ∧ settime = true
  | _ => True

/-! ## The invariant -/

/-- The tags that the clients hold. -/
def owned (σ : State) : List TimerTag :=
  (σ.starting.map (·.tag)).toList ++ σ.periodicJobIds ++ σ.waitables.map (·.timerId)

/-- The tags below the end are reserved or recycled, once each, and the end is within the table. -/
structure Partitioned (σ : State) : Prop where
  partition : (σ.live ++ σ.queue.timerTagRecycleBin).Perm (List.range σ.queue.tagEnd)
  capacity : σ.queue.tagEnd ≤ kMaxTimerCount

/-- The invariant: moreover the clients hold reserved tags, no two of them the same one. -/
structure TagInv (σ : State) : Prop extends Partitioned σ where
  owned : σ.owned.Subperm σ.live

/-- The invariant gives the property. -/
theorem TagInv.tagsKept (h : σ.TagInv) : σ.TagsKept where
  partition := h.partition
  distinct :=
    (List.nodup_append.mp (h.partition.nodup_iff.mpr List.nodup_range)).1
  reusable tag htag callback := by
    rcases σ.queue.reserve_cases callback with ⟨tag', rest, hbin, heq⟩ | ⟨hbin, -⟩ | ⟨hfull, -⟩
    · obtain rfl : tag' = tag := by simpa [hbin] using htag
      rw [heq]
    · simp [hbin] at htag
    · exact absurd h.capacity (Nat.not_le.mpr hfull)

/-- A state with the same tags and the same reservations is partitioned too. -/
theorem Partitioned.congr (h : σ.Partitioned) (hlive : σ'.live = σ.live)
    (htags : σ'.queue.timerTagRecycleBin = σ.queue.timerTagRecycleBin ∧
      σ'.queue.tagEnd = σ.queue.tagEnd) : σ'.Partitioned where
  partition := by rw [hlive, htags.1, htags.2]; exact h.partition
  capacity := by rw [htags.2]; exact h.capacity

/-- `Dequeue()` of a reserved tag moves it to the recycle bin. -/
theorem Partitioned.dequeue (h : σ.Partitioned) {settime : Bool} {stale : TimerTag}
    (hlive : timer ∈ σ.live) (hremovable : σ.Removable timer) (hsettime : settime = true) :
    (σ.dequeue timer settime stale).Partitioned := by
  obtain ⟨hbin, hend⟩ := TimerQueue.dequeue_recycles hremovable hsettime stale
  refine ⟨?_, ?_⟩
  · simp only [State.dequeue, hbin, hend]
    have hmove : (σ.live.erase timer ++ (σ.queue.timerTagRecycleBin ++ [timer])).Perm
        (timer :: σ.live.erase timer ++ σ.queue.timerTagRecycleBin) := by
      rw [← List.append_assoc]
      exact List.perm_append_singleton _ _
    have hcons := (List.perm_cons_erase hlive).symm
    exact (hmove.trans (hcons.append_right _)).trans h.partition
  · simp only [State.dequeue, hend]
    exact h.capacity

/-- `Reserve()` makes a tag reserved that was not. -/
theorem Partitioned.reserve (h : σ.Partitioned) (callback : Callback)
    (hfresh : σ.queue.timerTagRecycleBin = [] → σ.queue.tagEnd < kMaxTimerCount) :
    ∃ tag queue, σ.reserve callback = ({ σ with queue, live := tag :: σ.live }, some tag) ∧
      { σ with queue, live := tag :: σ.live }.Partitioned := by
  have hpart := h.partition
  rcases σ.queue.reserve_cases callback with ⟨tag, rest, hbin, heq⟩ | ⟨hbin, heq⟩ | ⟨hfull, -⟩
  · refine ⟨tag, (σ.queue.reserve callback).1, by simp only [State.reserve, heq], ?_⟩
    rw [heq]
    refine ⟨?_, h.capacity⟩
    rw [hbin] at hpart
    exact List.perm_middle.symm.trans hpart
  · refine ⟨σ.queue.tagEnd, (σ.queue.reserve callback).1, by simp only [State.reserve, heq], ?_⟩
    rw [heq]
    refine ⟨?_, hfresh hbin⟩
    rw [hbin, List.append_nil] at hpart
    simp only [TimerQueue.setTimer, hbin, List.append_nil, List.range_succ]
    exact (hpart.cons _).trans (List.perm_append_singleton _ _).symm
  · exact absurd h.capacity (Nat.not_le.mpr hfull)

/-- What a client gives up may be dequeued. -/
theorem TagInv.dequeue (h : σ.Partitioned) {settime : Bool} {stale : TimerTag}
    (howned : (timer :: σ.owned).Subperm σ.live) (hremovable : σ.Removable timer)
    (hsettime : settime = true) : (σ.dequeue timer settime stale).TagInv where
  toPartitioned := h.dequeue (howned.subset List.mem_cons_self) hremovable hsettime
  owned := by
    have herase := howned.erase timer
    rw [List.erase_cons_head] at herase
    exact herase

/-- A state with the same tags, reservations and holders satisfies the invariant too. -/
theorem TagInv.congr (h : σ.TagInv) (hlive : σ'.live = σ.live)
    (htags : σ'.queue.timerTagRecycleBin = σ.queue.timerTagRecycleBin ∧
      σ'.queue.tagEnd = σ.queue.tagEnd) (howned : σ'.owned.Subperm σ.owned) : σ'.TagInv where
  toPartitioned := h.toPartitioned.congr hlive htags
  owned := by
    rw [hlive]
    exact howned.trans h.owned

/-- The invariant is not about jobs. -/
theorem TagInv.jobs (h : σ.TagInv) (jobCount completions otherJobs : ℕ) :
    { σ with jobCount, completions, otherJobs }.TagInv :=
  h.congr rfl ⟨rfl, rfl⟩ (.refl _)

/-- `RemoveTimedTaskAsync()` of a registered task keeps the invariant. -/
theorem TagInv.removeTimedTaskAsync (h : σ.TagInv) {task : TimerTag} {settime : Bool}
    (hmem : task ∈ σ.periodicJobIds) (hremovable : σ.Removable task) (hsettime : settime = true)
    (stale : TimerTag) : (σ.removeTimedTaskAsync task settime stale).TagInv := by
  simp only [State.removeTimedTaskAsync, hmem, ↓reduceIte]
  have hids : (task :: ToMathlib.swapRemove (· = task) σ.periodicJobIds).Perm σ.periodicJobIds := by
    have hremove := ToMathlib.swapRemove_perm (· = task) σ.periodicJobIds
    have herase : σ.periodicJobIds.eraseP (· = task) = σ.periodicJobIds.erase task := by
      rw [List.erase_eq_eraseP']
      rfl
    rw [herase] at hremove
    exact (hremove.cons task).trans (List.perm_cons_erase hmem).symm
  have howned : (task :: State.owned { σ with
      periodicJobIds := ToMathlib.swapRemove (· = task) σ.periodicJobIds }).Perm σ.owned :=
    (List.perm_middle.symm.trans (hids.append_left _)).append_right _
  have hpart : Partitioned { σ with
      periodicJobIds := ToMathlib.swapRemove (· = task) σ.periodicJobIds } :=
    h.toPartitioned.congr rfl ⟨rfl, rfl⟩
  exact TagInv.dequeue hpart (howned.subperm.trans h.owned) hremovable hsettime

/-- `CancelTimedJob()` keeps the invariant. -/
theorem TagInv.cancelTimedJob (h : σ.TagInv) {task : TimerTag} {settime : Bool} {stale : TimerTag}
    (htidy : task ∈ σ.periodicJobIds → σ.Removable task ∧ settime = true) :
    (σ.cancelTimedJob task settime stale).TagInv := by
  simp only [State.cancelTimedJob]
  split
  · exact h
  · rename_i hmem
    rw [not_not] at hmem
    obtain ⟨hremovable, hsettime⟩ := htidy hmem
    have hremoved := h.removeTimedTaskAsync hmem hremovable hsettime stale
    split
    · exact hremoved.jobs _ _ _
    · exact hremoved

/-- A waitable timer that changes keeps its tag. -/
theorem owned_set {i : ℕ} {timer timer' : WaitableTimer} (hi : σ.waitables[i]? = some timer)
    (htag : timer'.timerId = timer.timerId) :
    State.owned { σ with waitables := σ.waitables.set i timer' } = σ.owned := by
  simp only [State.owned]
  rw [ToMathlib.map_set_of_eq (fun timer => timer.timerId) hi htag]

/-- `WaitAsync()` keeps the invariant. -/
theorem TagInv.waitAsync (h : σ.TagInv) {i : ℕ} {timer : WaitableTimer}
    (hi : σ.waitables[i]? = some timer) (now : ℕ) (settime : Bool) :
    (σ.waitAsync i timer now settime).TagInv := by
  have howned : State.owned { σ with
      waitables := σ.waitables.set i { timer with asyncWaitInProgress := true } } = σ.owned :=
    owned_set hi rfl
  have htags := σ.queue.doAddTimer_tags timer.timerId (timer.getNextExpiry now) timer.interval
    settime
  simp only [State.waitAsync]
  split
  · exact h
  split
  · exact h.congr rfl ⟨rfl, rfl⟩ (List.Perm.of_eq howned).subperm
  have hadded (queue : TimerQueue Callback)
      (hqueue : queue.timerTagRecycleBin = σ.queue.timerTagRecycleBin ∧
        queue.tagEnd = σ.queue.tagEnd) : TagInv { σ with
          queue
          waitables := σ.waitables.set i { timer with asyncWaitInProgress := true } } :=
    h.congr rfl hqueue (List.Perm.of_eq howned).subperm
  split
  · rename_i queue hadd
    rw [hadd] at htags
    exact (hadded queue htags).jobs _ _ _
  · rename_i queue ec hadd
    rw [hadd] at htags
    exact hadded queue htags

/-- A reservation that a client keeps for itself keeps the invariant. -/
theorem TagInv.reserve (h : σ.TagInv) (callback : Callback)
    (hfresh : σ.queue.timerTagRecycleBin = [] → σ.queue.tagEnd < kMaxTimerCount) :
    ∃ tag queue, σ.reserve callback = ({ σ with queue, live := tag :: σ.live }, some tag) ∧
      ∀ σ' : State, σ'.queue = queue → σ'.live = tag :: σ.live →
        σ'.owned.Perm (tag :: σ.owned) → σ'.TagInv := by
  obtain ⟨tag, queue, heq, hpart⟩ := h.toPartitioned.reserve callback hfresh
  refine ⟨tag, queue, heq, fun σ' hqueue hlive howned => ⟨?_, ?_⟩⟩
  · exact hpart.congr hlive (by rw [hqueue]; exact ⟨rfl, rfl⟩)
  · rw [hlive]
    exact howned.subperm.trans ((List.subperm_cons tag).mpr h.owned)

/-- The first part of a post keeps the invariant. -/
theorem TagInv.post (h : σ.TagInv) (hstarting : σ.starting = none) (type : TimedTaskType)
    (period : ℕ) (immediate : Bool)
    (hfresh : σ.queue.timerTagRecycleBin = [] → σ.queue.tagEnd < kMaxTimerCount) :
    (σ.post type period immediate).TagInv := by
  -- the immediate execution concerns the jobs only
  obtain ⟨jobCount, otherJobs, heq⟩ : ∃ jobCount otherJobs,
      (if immediate then { σ with otherJobs := σ.otherJobs + 1 }.onJobArrival else σ) =
        { σ with jobCount, otherJobs } := by
    cases immediate with
    | false => exact ⟨_, _, rfl⟩
    | true => exact ⟨_, _, rfl⟩
  simp only [State.post, heq]
  obtain ⟨tag, queue, hreserve, hinv⟩ :=
    (h.jobs jobCount σ.completions otherJobs).reserve (.task type) hfresh
  simp only [hreserve]
  refine hinv _ rfl rfl ?_
  simp [State.owned, hstarting]

/-- Starting a task keeps the invariant. -/
theorem TagInv.startTimedTaskAsync (h : σ.TagInv) {task : Starting}
    (hstarting : σ.starting = some task) (now : ℕ) (settime : Bool) :
    (σ.startTimedTaskAsync task now settime).TagInv := by
  have htags := σ.queue.doAddTimer_tags task.tag (now + task.period)
    (if task.type = .kRecurring then task.period else 0) settime
  simp only [State.startTimedTaskAsync]
  split
  · rename_i queue hadd
    rw [hadd] at htags
    have hmoved : TagInv { σ with
        queue
        starting := none
        periodicJobIds := σ.periodicJobIds ++ [task.tag] } := by
      refine h.congr rfl htags (List.Perm.subperm ?_)
      simp only [State.owned, hstarting]
      exact (List.perm_append_singleton _ _).append_right _
    exact hmoved.jobs _ _ _
  · rename_i queue ec hadd
    rw [hadd] at htags
    refine h.congr rfl htags ?_
    simp only [State.owned, hstarting]
    exact ((List.sublist_cons_self _ _).append_right _).subperm

/-- A turn of the loop of `HandleExpiry()` keeps the invariant. -/
theorem TagInv.loop (h : σ.TagInv) (fired now : ℕ) (settime : Bool) :
    (σ.loop fired now settime).TagInv := by
  simp only [State.loop]
  split
  · exact h.congr rfl ⟨rfl, rfl⟩ (.refl _)
  · have hprimed (completions : ℕ) : TagInv { σ with
        looping := none
        queue := σ.queue.primeTimerFd settime
        completions } :=
      h.congr rfl (σ.queue.primeTimerFd_tags settime) (.refl _)
    split
    · exact hprimed _
    · exact (hprimed (σ.completions + 1)).jobs _ _ _

/-- The end of an expiry keeps the invariant. -/
theorem TagInv.finishExpiry (h : σ.TagInv) (i : ℕ) (e : Expiry) : (σ.finishExpiry i e).TagInv := by
  have hended (looping : Option ℕ) : TagInv { σ with
      queue := σ.queue.endOneExpiry e.tag e.prevExpiry
      expiries := σ.expiries.eraseIdx i
      looping } :=
    h.congr rfl (σ.queue.endOneExpiry_tags e.tag e.prevExpiry) (.refl _)
  simp only [State.finishExpiry]
  split
  · exact hended _
  · exact (hended σ.looping).jobs _ _ _

/-- One step keeps the invariant. -/
theorem TagInv.step (h : σ.TagInv) {a : Action} (hC : σ.Tidy a) (hσ' : σ.step a = some σ') :
    σ'.TagInv := by
  cases transition_of_step hσ' with
  | construct hlooping hreserve =>
    obtain ⟨tag, queue, hreserve', hinv⟩ := h.reserve .waitable hC
    obtain ⟨rfl, rfl⟩ : _ ∧ _ := by simpa using hreserve'.symm.trans hreserve
    refine hinv _ rfl rfl ?_
    simp only [State.owned, List.map_append, List.map_cons, List.map_nil, ← List.append_assoc]
    exact List.perm_append_singleton _ _
  | expiresAtRefused hi hwait => exact h
  | expiresAt hi hwait =>
    -- the timer keeps its tag
    refine h.congr rfl ⟨rfl, rfl⟩ (List.Perm.of_eq ?_).subperm
    exact owned_set hi rfl
  | waitAsync hlooping hi => exact h.waitAsync hi _ _
  | @destroy i settime stale timer hlooping hi =>
    obtain ⟨hremovable, hsettime⟩ := hC timer hi
    have hpart : Partitioned { σ with waitables := σ.waitables.eraseIdx i } :=
      h.toPartitioned.congr rfl ⟨rfl, rfl⟩
    have howned : (timer.timerId ::
        State.owned { σ with waitables := σ.waitables.eraseIdx i }).Perm σ.owned :=
      List.perm_middle.symm.trans
        (((ToMathlib.cons_eraseIdx_perm hi).map WaitableTimer.timerId).append_left _)
    exact TagInv.dequeue hpart (howned.subperm.trans h.owned) hremovable hsettime
  | post hlooping hstarting => exact h.post hstarting _ _ _ hC
  | start hlooping hnow htask => exact h.startTimedTaskAsync htask _ _
  | cancel hlooping => exact h.cancelTimedJob hC
  | operation hlooping => exact h.congr rfl ⟨rfl, rfl⟩ (.refl _)
  | loop hlooping => exact h.loop _ _ _
  | call hi hready => exact h.congr rfl ⟨rfl, rfl⟩ (.refl _)
  | remove hi hready =>
    obtain ⟨hmem, hremovable, hsettime⟩ := hC _ hi
    exact (h.removeTimedTaskAsync hmem hremovable hsettime _).congr rfl ⟨rfl, rfl⟩ (.refl _)
  | finish hi hready => exact h.finishExpiry _ _
  -- the job counter is no part of the invariant
  | complete hpos => exact h.jobs _ _ _
  | otherArrival => exact h.jobs _ _ _
  | otherCompletion hpos => exact h.jobs _ _ _

end State

/-! ## The result -/

/-- In a tidy run the tags below `tag_end_` are partitioned into the reserved and the
recycled ones. -/
theorem tags_kept {σ : State} (hσ : machine.ReachableIn State.Tidy σ) : σ.TagsKept := by
  have hinv : σ.TagInv := by
    refine hσ.invariant ?_ ?_
    · rintro _ ⟨jobs, -, rfl⟩
      exact ⟨⟨.nil, Nat.zero_le _⟩, .refl _⟩
    · intro σ a σ' h hC hσ'
      exact h.step hC hσ'
  exact hinv.tagsKept

instance (σ : State) (timer : TimerTag) : Decidable (σ.Removable timer) :=
  inferInstanceAs (Decidable (_ → _))

instance (σ : State) : (a : Action) → Decidable (σ.Tidy a)
  | .construct _ _ | .post _ _ _ | .cancel _ _ _ => inferInstanceAs (Decidable (_ → _))
  | .destroy _ _ _ | .remove _ _ _ => inferInstanceAs (Decidable (∀ _ ∈ _, _))
  | .expiresAt _ _ | .waitAsync _ _ _ | .start _ _ | .operation | .loop _ _ | .call _ _ |
    .finish _ | .complete | .otherArrival | .otherCompletion => inferInstanceAs (Decidable True)

/-- A deferred task fires and a periodic task is cancelled: both tags are recycled, and the first
one is reserved again. -/
theorem tags_kept_post_and_cancel :
    ∃ σ, machine.ReachableIn State.Tidy σ ∧ σ.live = [0] ∧ σ.queue.timerTagRecycleBin = [1] ∧
      σ.TagsKept := by
  have hσ := ToMathlib.Machine.reachableIn_get_run (M := machine) (C := State.Tidy) (s := {})
    (l := [.post .kOnce 10 false, .start 1 true, .post .kRecurring 30 false, .start 1 true,
      .operation, .loop 11 true, .call 0 11, .remove 0 true 0, .finish 0, .loop 12 true,
      .cancel 1 true 1, .construct false 5]) ⟨0, by decide, rfl⟩ (by decide)
  exact ⟨_, hσ, by decide, by decide, tags_kept hσ⟩

/-- A one-shot waitable timer is constructed, waits, fires and is destroyed: its tag is neither
reserved nor recycled. -/
theorem tags_kept_fired_waitable : ∃ σ, machine.Reachable σ ∧ ¬ σ.TagsKept := by
  have hσ := ToMathlib.Machine.reachableIn_get_run (M := machine) (C := ToMathlib.Machine.Always)
    (s := {})
    (l := [.construct false 5, .waitAsync 0 1 true, .operation, .loop 6 true, .call 0 6,
      .finish 0, .loop 7 true, .destroy 0 true 0]) ⟨0, by decide, rfl⟩ (by decide)
  refine ⟨_, hσ, fun hkept => ?_⟩
  exact absurd hkept.partition.length_eq (by decide)

end Asrt.Timer.Clients
