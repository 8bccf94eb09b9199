import Asrt.Timer.Handlers

/-!
# When handlers keep their identity

The timer queue has one release flag for all timers, recycles a tag while its handler may still be
running, and releases nothing when a timer that was never armed is dequeued. In runs that do not run
into one of these, every expiry invokes the handler of its own reservation, and a handler is
released exactly if its own timer was dequeued.
-/

namespace Asrt.Timer.Handlers

namespace State

variable {H : Type} {σ σ' : State H} {tag timer : TimerTag}

/-- The timer is being handled. -/
def Handling (σ : State H) (tag : TimerTag) : Prop := ∃ e ∈ σ.expiries, e.tag = tag

instance (σ : State H) (tag : TimerTag) : Decidable (σ.Handling tag) :=
  inferInstanceAs (Decidable (∃ e ∈ σ.expiries, e.tag = tag))

/-- The condition on a step. Timers are enqueued and dequeued by their owners. A tag is not handed
out while its old handler is running, nor is it one past the end of the table. A timer is dequeued
only after it was armed, not while it is in the queue twice, and not while it is being handled and a
release is pending. A timer is not handled twice at a time, and while a release is pending only the
expiry of the timer that was dequeued ends. -/
def Orderly (σ : State H) : Action H → Prop
  | .reserve _ =>
    (σ.queue.timerTagRecycleBin = [] → σ.queue.tagEnd ≠ kMaxTimerCount) ∧
      ∀ tag ∈ σ.queue.timerTagRecycleBin.head?, ¬ σ.Handling tag
  | .enqueue timer expiry _ _ =>
    (σ.reserved timer).isSome ∧ (expiry = 0 → ¬ σ.Handling timer)
  | .dequeue timer _ _ =>
    (σ.reserved timer).isSome ∧ (σ.queue.timers timer).isValid ∧
      σ.queue.queuedTags.count timer ≤ 1 ∧
      (σ.Handling timer → σ.queue.releaseHandlerMemory = false)
  | .loop now _ => ∀ tag ∈ σ.queue.nextExpired now, ¬ σ.Handling tag
  | .finish i =>
    σ.queue.releaseHandlerMemory → ∀ e ∈ σ.expiries[i]?, σ.reserved e.tag = none
  | _ => True

/-! ## The invariant -/

/-- The invariant of orderly runs. -/
structure Inv (σ : State H) : Prop where
  /-- A timer is in progress exactly if it is being handled, -/
  progress : ∀ t, (σ.queue.timers t).inProgress = true ↔ σ.Handling t
  /-- once at a time. -/
  distinct : (σ.expiries.map (·.tag)).Nodup
  /-- A reserved timer has its handler. -/
  kept : ∀ t h, σ.reserved t = some h → (σ.queue.timers t).handler = some h
  /-- A timer that is neither reserved nor being handled has none. -/
  released : ∀ t, σ.reserved t = none → ¬ σ.Handling t → (σ.queue.timers t).handler = none
  /-- A timer that is being handled has the handler of its reservation, and so has the expiry. -/
  expiring : ∀ e ∈ σ.expiries, ∃ h, e.reserved = some h ∧
    (σ.queue.timers e.tag).handler = some h ∧ (e.invoked = none ∨ e.invoked = some (some h))
  /-- At most one timer that is being handled was dequeued, and then a release is pending. -/
  pending : ∀ t, σ.Handling t → σ.reserved t = none → σ.queue.releaseHandlerMemory = true
  single : ∀ t t', σ.Handling t → σ.Handling t' → σ.reserved t = none → σ.reserved t' = none →
    t = t'
  queued : ∀ t ∈ σ.queue.queuedTags, (σ.reserved t).isSome
  /-- The recycled tags are not reserved, and each is there once. -/
  recycled : ∀ t ∈ σ.queue.timerTagRecycleBin, σ.reserved t = none
  recycledOnce : σ.queue.timerTagRecycleBin.Nodup
  /-- Tags from the end on were never used. -/
  reservedKnown : ∀ t, (σ.reserved t).isSome → t < σ.queue.tagEnd
  recycledKnown : ∀ t ∈ σ.queue.timerTagRecycleBin, t < σ.queue.tagEnd
  handlingKnown : ∀ t, σ.Handling t → t < σ.queue.tagEnd

/-- The invariant gives the property. -/
theorem Inv.handlersKept (h : σ.Inv) : σ.HandlersKept where
  invoked e he handler hinvoked := by
    obtain ⟨hr, hreserved, -, hnone | hsome⟩ := h.expiring e he
    · simp [hnone] at hinvoked
    · obtain rfl : some hr = handler := Option.some.inj (hsome.symm.trans hinvoked)
      exact ⟨nofun, hreserved.symm⟩
  kept := h.kept
  released t ht hnot := h.released t ht fun ⟨e, he, htag⟩ => hnot e he htag

/-- Nothing has happened yet. -/
theorem Inv.init : Inv ({} : State H) where
  progress _ := ⟨nofun, fun ⟨_, he, _⟩ => nomatch he⟩
  distinct := .nil
  kept := nofun
  released _ _ _ := rfl
  expiring := nofun
  pending _ := fun ⟨_, he, _⟩ => nomatch he
  single _ _ := fun ⟨_, he, _⟩ => nomatch he
  queued := nofun
  recycled := nofun
  recycledOnce := .nil
  reservedKnown := nofun
  recycledKnown := nofun
  handlingKnown _ := fun ⟨_, he, _⟩ => nomatch he

/-! ## Expiries -/

/-- What is being handled after an expiry begins. -/
theorem handling_beginExpiry (fromLoop : Bool) (t : TimerTag) :
    (σ.beginExpiry tag fromLoop).Handling t ↔ t = tag ∨ σ.Handling t := by
  simp [Handling, beginExpiry, eq_comm]

/-- The beginning of an expiry keeps the invariant. -/
theorem Inv.beginExpiry (h : σ.Inv) (hreserved : (σ.reserved tag).isSome)
    (hidle : ¬ σ.Handling tag) (fromLoop : Bool) : (σ.beginExpiry tag fromLoop).Inv := by
  obtain ⟨hr, hhr⟩ := Option.isSome_iff_exists.mp hreserved
  have hhandler (t : TimerTag) : ((σ.beginExpiry tag fromLoop).queue.timers t).handler =
      (σ.queue.timers t).handler := by
    by_cases ht : t = tag
    · subst ht; simp [State.beginExpiry, TimerQueue.beginOneExpiry, TimerQueue.setTimer]
    · simp [State.beginExpiry, TimerQueue.beginOneExpiry, TimerQueue.setTimer, ht]
  refine
    { progress := fun t => ?_
      distinct := ?_
      kept := fun t hd ht => (hhandler t).trans (h.kept t hd ht)
      released := fun t ht hnot => ?_
      expiring := fun e he => ?_
      pending := fun t ht hnone => ?_
      single := fun t t' ht ht' hnone hnone' => ?_
      queued := h.queued
      recycled := h.recycled
      recycledOnce := h.recycledOnce
      reservedKnown := h.reservedKnown
      recycledKnown := h.recycledKnown
      handlingKnown := fun t ht => ?_ }
  · rw [handling_beginExpiry]
    by_cases ht : t = tag
    · subst ht; simp [State.beginExpiry, TimerQueue.beginOneExpiry, TimerQueue.setTimer]
    · simpa [State.beginExpiry, TimerQueue.beginOneExpiry, TimerQueue.setTimer, ht]
        using h.progress t
  · refine List.nodup_cons.mpr ⟨fun hmem => hidle ?_, h.distinct⟩
    obtain ⟨e, he, htag⟩ := List.mem_map.mp hmem
    exact ⟨e, he, htag⟩
  · rw [handling_beginExpiry, not_or] at hnot
    exact (hhandler t).trans (h.released t ht hnot.2)
  · rcases List.mem_cons.mp he with rfl | he
    · exact ⟨hr, hhr, (hhandler tag).trans (h.kept tag hr hhr), .inl rfl⟩
    · obtain ⟨hr', hreserved', hhandler', hinvoked⟩ := h.expiring e he
      exact ⟨hr', hreserved', (hhandler e.tag).trans hhandler', hinvoked⟩
  · -- the timer that begins to expire is reserved, so no release is pending for it
    rcases (handling_beginExpiry fromLoop t).mp ht with rfl | ht
    · exact absurd (hhr.symm.trans hnone) (Option.some_ne_none hr)
    · exact h.pending t ht hnone
  · rcases (handling_beginExpiry fromLoop t).mp ht with rfl | ht
    · exact absurd (hhr.symm.trans hnone) (Option.some_ne_none hr)
    · rcases (handling_beginExpiry fromLoop t').mp ht' with rfl | ht'
      · exact absurd (hhr.symm.trans hnone') (Option.some_ne_none hr)
      · exact h.single t t' ht ht' hnone hnone'
  · rcases (handling_beginExpiry fromLoop t).mp ht with rfl | ht
    · exact h.reservedKnown t hreserved
    · exact h.handlingKnown t ht

/-- What is being handled, by the tags of the expiries. -/
theorem handling_iff (t : TimerTag) : σ.Handling t ↔ t ∈ σ.expiries.map (·.tag) := by
  simp [Handling]

/-- Invoking the handler of an expiry keeps the invariant. -/
theorem Inv.call (h : σ.Inv) {i now : ℕ} {e : Expiry H} (hi : σ.expiries[i]? = some e) :
    { σ with expiries := σ.expiries.set i { e with
      prevExpiry := now, invoked := some (σ.queue.timers e.tag).handler } }.Inv := by
  have htags : (σ.expiries.set i { e with
      prevExpiry := now, invoked := some (σ.queue.timers e.tag).handler }).map (·.tag) =
        σ.expiries.map (·.tag) :=
    ToMathlib.map_set_of_eq _ hi rfl
  have hhandling (t : TimerTag) : { σ with expiries := σ.expiries.set i { e with
      prevExpiry := now, invoked := some (σ.queue.timers e.tag).handler } }.Handling t ↔
        σ.Handling t := by
    rw [handling_iff, handling_iff, htags]
  refine
    { progress := fun t => (h.progress t).trans (hhandling t).symm
      distinct := htags ▸ h.distinct
      kept := h.kept
      released := fun t ht hnot => h.released t ht (mt (hhandling t).mpr hnot)
      expiring := fun e' he' => ?_
      pending := fun t ht => h.pending t ((hhandling t).mp ht)
      single := fun t t' ht ht' => h.single t t' ((hhandling t).mp ht) ((hhandling t').mp ht')
      queued := h.queued
      recycled := h.recycled
      recycledOnce := h.recycledOnce
      reservedKnown := h.reservedKnown
      recycledKnown := h.recycledKnown
      handlingKnown := fun t ht => h.handlingKnown t ((hhandling t).mp ht) }
  rcases List.mem_or_eq_of_mem_set he' with he' | rfl
  · exact h.expiring e' he'
  · -- what is invoked is what the table holds, and that is the handler of the reservation
    obtain ⟨hr, hreserved, hhandler, -⟩ := h.expiring e (List.mem_of_getElem? hi)
    exact ⟨hr, hreserved, hhandler, .inr (congrArg some hhandler)⟩

/-- The end of an expiry keeps the invariant, if a pending release is the one of its timer. -/
theorem Inv.finish (h : σ.Inv) {i : ℕ} {e : Expiry H} (hi : σ.expiries[i]? = some e)
    (hrelease : σ.queue.releaseHandlerMemory = true → σ.reserved e.tag = none) (looping : Bool) :
    { σ with
      queue := σ.queue.endOneExpiry e.tag e.prevExpiry
      expiries := σ.expiries.eraseIdx i
      looping }.Inv := by
  have hperm := ToMathlib.cons_eraseIdx_perm hi
  have hnodup := ((hperm.map Expiry.tag).nodup_iff.mpr h.distinct)
  obtain ⟨hnotin, hdistinct⟩ := List.nodup_cons.mp hnodup
  have hmem := List.mem_of_getElem? hi
  -- the other timers stay as they are
  have hhandling (t : TimerTag) (looping : Bool) (queue : TimerQueue H) :
      { σ with queue, expiries := σ.expiries.eraseIdx i, looping }.Handling t ↔
        σ.Handling t ∧ t ≠ e.tag := by
    rw [handling_iff, handling_iff, ← (hperm.map Expiry.tag).mem_iff]
    simp only [List.map_cons, List.mem_cons]
    exact ⟨fun ht => ⟨.inr ht, fun heq => hnotin (heq ▸ ht)⟩,
      fun ⟨ht, hne⟩ => ht.resolve_left hne⟩
  obtain ⟨queuedTimers, expiry, hsub, heq⟩ :=
    σ.queue.endOneExpiry_spec e.tag e.prevExpiry
  have hother {t : TimerTag} (ht : t ≠ e.tag) :
      (σ.queue.endOneExpiry e.tag e.prevExpiry).timers t =
        σ.queue.timers t := by
    rw [heq]
    exact Function.update_of_ne ht _ _
  have hself : (σ.queue.endOneExpiry e.tag e.prevExpiry).timers
      e.tag = { σ.queue.timers e.tag with
        inProgress := false
        expiry
        handler := if σ.queue.releaseHandlerMemory then none
          else (σ.queue.timers e.tag).handler } := by
    rw [heq]
    exact Function.update_self _ _ _
  refine
    { progress := fun t => ?_
      distinct := hdistinct
      kept := fun t hd ht => ?_
      released := fun t ht hnot => ?_
      expiring := fun e' he' => ?_
      pending := fun t ht hnone => ?_
      single := fun t t' ht ht' =>
        h.single t t' ((hhandling t _ _).mp ht).1 ((hhandling t' _ _).mp ht').1
      queued := fun t ht => h.queued t (hsub ?_)
      recycled := fun t ht => h.recycled t ?_
      recycledOnce := ?_
      reservedKnown := fun t ht => ?_
      recycledKnown := fun t ht => ?_
      handlingKnown := fun t ht => ?_ }
  · rw [hhandling]
    by_cases ht : t = e.tag
    · subst ht; simp [hself]
    · simpa [hother ht, ht] using h.progress t
  · by_cases htag : t = e.tag
    · -- a timer that is still reserved has no release pending
      subst htag
      have hno : σ.queue.releaseHandlerMemory = false := by
        by_contra hyes
        exact absurd (ht.symm.trans (hrelease (by simpa using hyes))) nofun
      simpa [hself, hno] using h.kept _ hd ht
    · simpa [hother htag] using h.kept t hd ht
  · by_cases htag : t = e.tag
    · subst htag
      have hyes := h.pending _ ⟨_, hmem, rfl⟩ ht
      simp [hself, hyes]
    · rw [hhandling, not_and_or, not_ne_iff] at hnot
      simpa [hother htag] using h.released t ht (hnot.resolve_right htag)
  · have hne : e'.tag ≠ e.tag := fun heq' =>
      hnotin (heq' ▸ List.mem_map_of_mem he')
    obtain ⟨hr, hreserved, hhandler, hinvoked⟩ := h.expiring e' (List.mem_of_mem_eraseIdx he')
    exact ⟨hr, hreserved, by simpa [hother hne] using hhandler, hinvoked⟩
  · -- the release that was pending was the one of the timer whose expiry ends
    obtain ⟨ht, hne⟩ := (hhandling t _ _).mp ht
    have hyes := h.pending t ht hnone
    exact absurd (h.single t _ ht ⟨_, hmem, rfl⟩ hnone (hrelease hyes)) hne
  · simp only [heq] at ht
    exact ht
  · simp only [heq] at ht
    exact ht
  · simp only [heq]
    exact h.recycledOnce
  · simp only [heq]
    exact h.reservedKnown t ht
  · simp only [heq] at ht ⊢
    exact h.recycledKnown t ht
  · simp only [heq]
    exact h.handlingKnown t ((hhandling t _ _).mp ht).1

/-! ## Reservations and the queue -/

/-- A tag that is neither reserved nor being handled may be reserved. -/
theorem Inv.handOut (h : σ.Inv) {timerTagRecycleBin : List TimerTag} {tagEnd : ℕ} (handler : H)
    (hfree : σ.reserved tag = none) (hidle : ¬ σ.Handling tag) (hlt : tag < tagEnd)
    (hend : σ.queue.tagEnd ≤ tagEnd)
    (hbin : timerTagRecycleBin ⊆ σ.queue.timerTagRecycleBin) (hnotin : tag ∉ timerTagRecycleBin)
    (honce : timerTagRecycleBin.Nodup) :
    { σ with
      queue := { σ.queue with timerTagRecycleBin, tagEnd }.setTimer tag
        { σ.queue.timers tag with handler := some handler, inProgress := false }
      reserved := Function.update σ.reserved tag (some handler) }.Inv := by
  -- a tag that is not reserved afterwards is another one, and was not reserved before
  have hreserved {t : TimerTag} (ht : Function.update σ.reserved tag (some handler) t = none) :
      t ≠ tag ∧ σ.reserved t = none := by
    by_cases htag : t = tag
    · subst htag; simp at ht
    · exact ⟨htag, by simpa [htag] using ht⟩
  refine
    { progress := fun t => ?_
      distinct := h.distinct
      kept := fun t hd ht => ?_
      released := fun t ht hnot => ?_
      expiring := fun e he => ?_
      pending := fun t ht hnone => h.pending t ht (hreserved hnone).2
      single := fun t t' ht ht' hnone hnone' =>
        h.single t t' ht ht' (hreserved hnone).2 (hreserved hnone').2
      queued := fun t ht => ?_
      recycled := fun t ht => ?_
      recycledOnce := honce
      reservedKnown := fun t ht => ?_
      recycledKnown := fun t ht => Nat.lt_of_lt_of_le (h.recycledKnown t (hbin ht)) hend
      handlingKnown := fun t ht => Nat.lt_of_lt_of_le (h.handlingKnown t ht) hend }
  · change _ ↔ σ.Handling t
    by_cases htag : t = tag
    · subst htag
      simpa [TimerQueue.setTimer] using hidle
    · simpa [TimerQueue.setTimer, htag] using h.progress t
  · by_cases htag : t = tag
    · subst htag
      simpa [TimerQueue.setTimer] using ht
    · simp only [Function.update_of_ne htag] at ht
      simpa [TimerQueue.setTimer, htag] using h.kept t hd ht
  · obtain ⟨htag, hnone⟩ := hreserved ht
    simpa [TimerQueue.setTimer, htag] using h.released t hnone hnot
  · have htag : e.tag ≠ tag := fun heq => hidle ⟨e, he, heq⟩
    obtain ⟨hr, hreserved, hhandler, hinvoked⟩ := h.expiring e he
    exact ⟨hr, hreserved, by simpa [TimerQueue.setTimer, htag] using hhandler, hinvoked⟩
  · by_cases htag : t = tag
    · subst htag; simp
    · simpa [htag] using h.queued t ht
  · have htag : t ≠ tag := fun heq => hnotin (heq ▸ ht)
    simpa [htag] using h.recycled t (hbin ht)
  · by_cases htag : t = tag
    · exact htag ▸ hlt
    · exact Nat.lt_of_lt_of_le (h.reservedKnown t (by simpa [htag] using ht)) hend

/-- `Reserve()` keeps the invariant, if it does not hand out a tag whose handler is running. -/
theorem Inv.reserve (h : σ.Inv) (handler : H)
    (hidle : ∀ tag ∈ σ.queue.timerTagRecycleBin.head?, ¬ σ.Handling tag) :
    (σ.reserve handler).Inv := by
  rcases σ.queue.reserve_cases handler with ⟨tag, rest, hbin, heq⟩ | ⟨hbin, heq⟩ | ⟨-, heq⟩
  · simp only [State.reserve, heq]
    have honce := h.recycledOnce
    rw [hbin, List.nodup_cons] at honce
    refine h.handOut handler (h.recycled tag (by simp [hbin])) (hidle tag (by simp [hbin]))
      (h.recycledKnown tag (by simp [hbin])) (Nat.le_refl _) ?_ honce.1 honce.2
    rw [hbin]
    exact List.subset_cons_self _ _
  · simp only [State.reserve, heq]
    refine h.handOut handler ?_ (fun hh => absurd (h.handlingKnown _ hh) (Nat.lt_irrefl _))
      (Nat.lt_succ_self _) (Nat.le_succ _) (List.Subset.refl _) (by simp [hbin]) h.recycledOnce
    by_contra hsome
    exact absurd (h.reservedKnown _ (Option.isSome_iff_ne_none.mpr hsome)) (Nat.lt_irrefl _)
  · simp only [State.reserve, heq]
    exact h

/-- `Enqueue()` of a timer that is not due at once keeps the invariant. -/
theorem Inv.doAddTimer (h : σ.Inv) (hreserved : (σ.reserved timer).isSome)
    (expiry interval : ℕ) (settime : Bool) :
    { σ with queue := (σ.queue.doAddTimer timer expiry interval settime).1 }.Inv := by
  obtain ⟨queuedTimers, timerFd, res, hperm, -, heq⟩ :=
    σ.queue.doAddTimer_spec timer expiry interval settime
  simp only [heq]
  -- the entry of the timer keeps its handler
  have hhandler (t : TimerTag) : (({ σ.queue with queuedTimers, timerFd }.setTimer timer
      { σ.queue.timers timer with expiry, interval, isValid := true }).timers t).handler =
      (σ.queue.timers t).handler := by
    by_cases ht : t = timer
    · subst ht; simp [TimerQueue.setTimer]
    · simp [TimerQueue.setTimer, ht]
  refine
    { progress := fun t => ?_
      distinct := h.distinct
      kept := fun t hd ht => (hhandler t).trans (h.kept t hd ht)
      released := fun t ht hnot => (hhandler t).trans (h.released t ht hnot)
      expiring := fun e he => ?_
      pending := h.pending
      single := h.single
      queued := fun t ht => ?_
      recycled := h.recycled
      recycledOnce := h.recycledOnce
      reservedKnown := h.reservedKnown
      recycledKnown := h.recycledKnown
      handlingKnown := h.handlingKnown }
  · change _ ↔ σ.Handling t
    by_cases ht : t = timer
    · subst ht; simpa [TimerQueue.setTimer] using h.progress t
    · simpa [TimerQueue.setTimer, ht] using h.progress t
  · obtain ⟨hr, hres, hh, hinvoked⟩ := h.expiring e he
    exact ⟨hr, hres, (hhandler e.tag).trans hh, hinvoked⟩
  · -- the timer is the only one that was not queued before
    rcases List.mem_cons.mp (hperm.subset ht) with rfl | ht
    · exact hreserved
    · exact h.queued t ht

/-- `Dequeue()` of a timer that was armed keeps the invariant. -/
theorem Inv.dequeue (h : σ.Inv) {settime : Bool} {stale : TimerTag}
    (hreserved : (σ.reserved timer).isSome) (hvalid : (σ.queue.timers timer).isValid = true)
    (hcount : σ.queue.queuedTags.count timer ≤ 1)
    (hpending : σ.Handling timer → σ.queue.releaseHandlerMemory = false) :
    (σ.dequeue timer settime stale).Inv := by
  obtain ⟨queuedTimers, timerTagRecycleBin, timerFd, res, hperm, hbin, -, heq⟩ :=
    TimerQueue.dequeue_of_valid hvalid settime stale
  simp only [State.dequeue, heq, TimerQueue.invalidateTimer_eq]
  have hnotin : timer ∉ σ.queue.timerTagRecycleBin := fun hmem => by
    simp [h.recycled timer hmem] at hreserved
  have hnone {t : TimerTag} (ht : t ≠ timer) (hr : Function.update σ.reserved timer none t = none) :
      σ.reserved t = none := by
    simpa [ht] using hr
  -- while the timer is being handled no other release is pending, so no other timer was dequeued
  have halone {t : TimerTag} (hh : σ.Handling timer) (ht : σ.Handling t)
      (hr : Function.update σ.reserved timer none t = none) : t = timer := by
    by_contra hne
    exact absurd ((hpending hh).symm.trans (h.pending t ht (hnone hne hr))) nofun
  refine
    { progress := fun t => ?_
      distinct := h.distinct
      kept := fun t hd ht => ?_
      released := fun t ht hnot => ?_
      expiring := fun e he => ?_
      pending := fun t ht hr => ?_
      single := fun t t' ht ht' hr hr' => ?_
      queued := fun t ht => ?_
      recycled := fun t ht => ?_
      recycledOnce := ?_
      reservedKnown := fun t ht => ?_
      recycledKnown := fun t ht => ?_
      handlingKnown := h.handlingKnown }
  · change _ ↔ σ.Handling t
    by_cases ht : t = timer
    · subst ht; simpa [TimerQueue.setTimer] using h.progress t
    · simpa [TimerQueue.setTimer, ht] using h.progress t
  · by_cases htag : t = timer
    · subst htag; simp at ht
    · simp only [Function.update_of_ne htag] at ht
      simpa [TimerQueue.setTimer, htag] using h.kept t hd ht
  · replace hnot : ¬ σ.Handling t := hnot
    by_cases htag : t = timer
    · subst htag
      have hidle : (σ.queue.timers t).inProgress = false := by
        simpa using mt (h.progress t).mp hnot
      simp [TimerQueue.setTimer, hidle]
    · simpa [TimerQueue.setTimer, htag] using h.released t (hnone htag ht) hnot
  · obtain ⟨hr, hres, hhandler, hinvoked⟩ := h.expiring e he
    refine ⟨hr, hres, ?_, hinvoked⟩
    by_cases htag : e.tag = timer
    · have hprogress : (σ.queue.timers timer).inProgress = true :=
        (h.progress timer).mpr ⟨e, he, htag⟩
      rw [htag] at hhandler ⊢
      simpa [TimerQueue.setTimer, hprogress] using hhandler
    · simpa [TimerQueue.setTimer, htag] using hhandler
  · replace ht : σ.Handling t := ht
    by_cases htag : t = timer
    · subst htag
      simp [TimerQueue.setTimer, (h.progress t).mpr ht]
    · simp [TimerQueue.setTimer, h.pending t ht (hnone htag hr)]
  · replace ht : σ.Handling t := ht
    replace ht' : σ.Handling t' := ht'
    by_cases htag : t = timer
    · exact htag.trans (halone (htag ▸ ht) ht' hr').symm
    · by_cases htag' : t' = timer
      · exact (halone (htag' ▸ ht') ht hr).trans htag'.symm
      · exact h.single t t' ht ht' (hnone htag hr) (hnone htag' hr')
  · have hmem := hperm.subset ht
    have hne : t ≠ timer := by
      rintro rfl
      have hpos := List.count_pos_iff.mpr hmem
      rw [List.count_erase_self] at hpos
      omega
    simpa [hne] using h.queued t (List.mem_of_mem_erase hmem)
  · rcases hbin with rfl | rfl
    · have hne : t ≠ timer := fun heq' => hnotin (heq' ▸ ht)
      simpa [hne] using h.recycled t ht
    · rcases List.mem_append.mp ht with ht | ht
      · have hne : t ≠ timer := fun heq' => hnotin (heq' ▸ ht)
        simpa [hne] using h.recycled t ht
      · obtain rfl := List.mem_singleton.mp ht
        simp
  · rcases hbin with rfl | rfl
    · exact h.recycledOnce
    · refine List.nodup_append.mpr ⟨h.recycledOnce, by simp, ?_⟩
      intro t ht t' ht' heq'
      exact hnotin (List.mem_singleton.mp ht' ▸ heq' ▸ ht)
  · by_cases htag : t = timer
    · subst htag; simp at ht
    · exact h.reservedKnown t (by simpa [htag] using ht)
  · rcases hbin with rfl | rfl
    · exact h.recycledKnown t ht
    · rcases List.mem_append.mp ht with ht | ht
      · exact h.recycledKnown t ht
      · obtain rfl := List.mem_singleton.mp ht
        exact h.reservedKnown t hreserved

/-- The invariant is not about the loop and the timerfd. -/
theorem Inv.loopState (h : σ.Inv) (looping : Bool) (timerFd : ℕ) :
    { σ with looping, queue := { σ.queue with timerFd } }.Inv :=
  ⟨h.progress, h.distinct, h.kept, h.released, h.expiring, h.pending, h.single, h.queued,
    h.recycled, h.recycledOnce, h.reservedKnown, h.recycledKnown, h.handlingKnown⟩

/-- The end of the loop of `HandleExpiry()` keeps the invariant. -/
theorem Inv.primeTimerFd (h : σ.Inv) (settime : Bool) (looping : Bool) :
    { σ with looping, queue := σ.queue.primeTimerFd settime }.Inv := by
  obtain ⟨timerFd, heq⟩ := σ.queue.primeTimerFd_spec settime
  rw [heq]
  exact h.loopState looping timerFd

/-- One step keeps the invariant. -/
theorem Inv.step (h : σ.Inv) {a : Action H} (hC : σ.Orderly a) (hσ' : σ.step a = some σ') :
    σ'.Inv := by
  cases transition_of_step hσ' with
  | reserve hidle => exact h.reserve _ hC.2
  | expireAtOnce hidle => exact h.beginExpiry hC.1 (hC.2 rfl) false
  | enqueue hidle hexpiry => exact h.doAddTimer hC.1 _ _ _
  | dequeue hidle => exact h.dequeue hC.1 hC.2.1 hC.2.2.1 hC.2.2.2
  | operation hidle => exact h.loopState true σ.queue.timerFd
  | expire hlooping hnext =>
    exact (h.loopState false σ.queue.timerFd).beginExpiry
      (h.queued _ (TimerQueue.mem_queuedTags_of_nextExpired hnext)) (hC _ hnext) true
  | prime hlooping hnext => exact h.primeTimerFd _ false
  | call hi hcalled => exact h.call hi
  | @finish i e hi hidle hcalled => exact h.finish hi (fun hrelease => hC hrelease e hi) e.fromLoop

end State

/-! ## The result -/

/-- In an orderly run every expiry invokes the handler of its own reservation, and a handler is
released exactly if its own timer was dequeued. -/
theorem handler_identity {H : Type} {σ : State H}
    (hσ : (machine H).ReachableIn State.Orderly σ) : σ.HandlersKept := by
  have hinv : σ.Inv := by
    refine hσ.invariant ?_ ?_
    · rintro _ rfl
      exact State.Inv.init
    · intro σ a σ' h hC hσ'
      exact h.step hC hσ'
  exact hinv.handlersKept

instance {H : Type} (σ : State H) : (a : Action H) → Decidable (σ.Orderly a)
  | .reserve _ | .enqueue _ _ _ _ | .dequeue _ _ _ => inferInstanceAs (Decidable (_ ∧ _))
  | .loop _ _ => inferInstanceAs (Decidable (∀ _ ∈ _, _))
  | .finish _ => inferInstanceAs (Decidable (_ → _))
  | .operation | .call _ _ => inferInstanceAs (Decidable True)

/-- A recurring timer that cancels itself from its handler, while a one-shot timer waits: the first
expiry invokes the first handler, which is then released, and the second timer keeps its own. -/
theorem handler_identity_self_cancel :
    ∃ σ : State ℕ, (machine ℕ).ReachableIn State.Orderly σ ∧ σ.reserved 0 = none ∧
      (σ.queue.timers 0).handler = none ∧ σ.reserved 1 = some 21 ∧ σ.HandlersKept := by
  have hσ := ToMathlib.Machine.reachableIn_get_run (M := machine ℕ) (C := State.Orderly) (s := {})
    (l := [.reserve 20, .reserve 21, .enqueue 0 10 5 true, .enqueue 1 30 0 true, .operation,
      .loop 10 true, .call 0 10, .dequeue 0 true 0, .finish 0, .loop 11 true]) rfl (by decide)
  exact ⟨_, hσ, by decide, by decide, by decide, handler_identity hσ⟩

/-- A handler cancels its own timer and then lets a zero-expiry timer run: the release goes to the
zero-expiry timer, which was not dequeued, and when that timer is armed later its expiry invokes an
empty handler. -/
theorem handler_identity_shared_release :
    ∃ σ : State ℕ, (machine ℕ).Reachable σ ∧ ¬ σ.HandlersKept := by
  have hσ := ToMathlib.Machine.reachableIn_get_run (M := machine ℕ)
    (C := ToMathlib.Machine.Always) (s := {})
    (l := [.reserve 20, .reserve 21, .enqueue 0 10 0 true, .operation, .loop 10 true,
      .call 0 10, .dequeue 0 true 0, .enqueue 1 0 0 true, .call 0 11, .finish 0,
      .enqueue 1 20 0 true, .finish 0, .loop 20 true, .call 0 20]) rfl (by decide)
  refine ⟨_, hσ, fun hkept => ?_⟩
  have hempty := hkept.invoked
    { tag := 1, fromLoop := true, prevExpiry := 20, invoked := some none, reserved := some 21 }
    (by decide) none rfl
  exact hempty.1 rfl

end Asrt.Timer.Handlers
