import Asrt.SignalSet.Basic

/-!
# Waits of a signal set

A handler that is passed to `WaitAsync()` is stored until the reactor's notification completes the
wait, or queued with the executor if the wait ends at once or is refused. The handlers of all calls
are accounted for by where they are: called, queued, about to be called by `OnReactorEvent()`, or
pending.

Two calls break the account. `Cancel()` moves the stored handler into the queue and leaves
`is_wait_ongoing_` set, so that the set refuses every later wait. `WaitAsync()` in the window in
which `OnReactorEvent()` has released the mutex and not yet called the stored handler replaces this
handler.

## Main results

- `waits_settle_iff`: in a run, each handler is called once, none is empty and a wait is refused
  only while another one is pending, if and only if no ongoing wait is cancelled and no wait starts
  in the window.
-/

namespace Asrt.SignalSet

open ToMathlib

/-- The action is not a call of a client. -/
def Action.IsInternal : Action → Prop
  | .waitAsync _ | .cancel => False
  | _ => True

namespace BasicSignalSet

/-! ## The property -/

/-- The handlers that were called. -/
def called (σ : BasicSignalSet) : List ℕ := σ.invoked.map Prod.fst

/-- The handlers that are queued with the executor. -/
def queued (σ : BasicSignalSet) : List ℕ := σ.jobs.filterMap Prod.fst

/-- The handler that `OnReactorEvent()` is about to call. -/
def about (σ : BasicSignalSet) : List ℕ :=
  match σ.handling with
  | .calling _ => σ.waitCompletionHandler.toList
  | _ => []

/-- The handler of the ongoing wait. -/
def pending (σ : BasicSignalSet) : List ℕ :=
  if σ.isWaitOngoing then σ.waitCompletionHandler.toList else []

/-- All handlers, by where they are. -/
def held (σ : BasicSignalSet) : List ℕ := σ.called ++ σ.queued ++ σ.about ++ σ.pending

/-- The handler of each call of `WaitAsync()` is in one place. -/
def Accounted (σ : BasicSignalSet) : Prop := σ.held.Perm (List.range σ.waits)

/-- The handler of each call of `WaitAsync()` has been called once. -/
def AllCalled (σ : BasicSignalSet) : Prop := σ.called.Perm (List.range σ.waits)

/-- No empty handler is about to be called. -/
def NoneEmpty (σ : BasicSignalSet) : Prop :=
  (∀ job ∈ σ.jobs, job.1.isSome) ∧
    ∀ res, σ.handling = .calling res → σ.waitCompletionHandler.isSome

/-- The set accepts the next wait, and is not in the middle of anything. -/
def Ready (σ : BasicSignalSet) : Prop :=
  σ.isWaitOngoing = false ∧ σ.handling = .idle ∧ σ.jobs = []

/-- Without further calls of clients, all handlers can be called and the next wait is
accepted then. -/
def Settles (σ : BasicSignalSet) : Prop :=
  ∃ as σ', (∀ a ∈ as, Action.IsInternal a) ∧ machine.run Machine.Always σ as = some σ' ∧
    σ'.waits = σ.waits ∧ σ'.AllCalled ∧ σ'.Ready

/-- What the signal set owes its clients. -/
structure Keeps (σ : BasicSignalSet) : Prop where
  accounted : σ.Accounted
  noneEmpty : σ.NoneEmpty
  /-- When all handlers have been called, the next wait is accepted. -/
  renewable : σ.AllCalled → σ.isWaitOngoing = false
  settles : σ.Settles

/-- No ongoing wait is cancelled, and no wait starts between the release of the mutex in
`OnReactorEvent()` and the call of the handler. -/
def Undisturbed (σ : BasicSignalSet) : Action → Prop
  | .waitAsync _ => ∀ res, σ.handling ≠ .calling res
  | .cancel => σ.isWaitOngoing = false
  | _ => True

/-- The invariant of undisturbed runs. -/
structure Inv (σ : BasicSignalSet) : Prop where
  accounted : σ.Accounted
  noneEmpty : σ.NoneEmpty
  /-- The handler of an ongoing wait is stored. -/
  stored : σ.isWaitOngoing = true → σ.waitCompletionHandler.isSome
  /-- In the window no wait is ongoing and no event has been ignored. -/
  window : ∀ res, σ.handling = .calling res → σ.isWaitOngoing = false ∧ σ.speculativeRead = false

theorem Inv.init : ({} : BasicSignalSet).Inv where
  accounted := .refl _
  noneEmpty := ⟨by simp, by simp⟩
  stored h := by cases h
  window res h := by cases h

variable {σ σ' : BasicSignalSet} {read : ReadResult} {res : WaitResult}

theorem about_of_ne (h : ∀ res, σ.handling ≠ .calling res) : σ.about = [] := by
  unfold about
  split
  · rename_i res hres
    exact absurd hres (h res)
  · rfl

theorem pending_of_ongoing (h : σ.isWaitOngoing = true) :
    σ.pending = σ.waitCompletionHandler.toList := by
  simp [pending, h]

theorem pending_of_not_ongoing (h : σ.isWaitOngoing = false) : σ.pending = [] := by
  simp [pending, h]

/-- A handler moves from one place to another. -/
theorem Accounted.of_perm (h : σ.Accounted) (hwaits : σ'.waits = σ.waits)
    (hheld : σ'.held.Perm σ.held) : σ'.Accounted := by
  rw [Accounted, hwaits]
  exact hheld.trans h

/-- The handler of a new call is added. -/
theorem Accounted.add (h : σ.Accounted) (hwaits : σ'.waits = σ.waits + 1)
    (hheld : σ'.held.Perm (σ.held ++ [σ.waits])) : σ'.Accounted := by
  rw [Accounted, hwaits, List.range_succ]
  exact hheld.trans (h.append_right _)

/-! ## What the calls do -/

/-- A wait is refused, stored, or completed at once. -/
theorem waitAsync_cases (σ : BasicSignalSet) (read : ReadResult) :
    (σ.isWaitOngoing = true ∧ σ.waitAsync read = { σ with
        waits := σ.waits + 1
        jobs := σ.jobs ++ [(some σ.waits, .error .asyncOperationInProgress)] }) ∨
    (σ.isWaitOngoing = false ∧ σ.waitAsync read = { σ with
        waits := σ.waits + 1
        speculativeRead := false
        isWaitOngoing := true
        waitCompletionHandler := some σ.waits }) ∨
    (σ.isWaitOngoing = false ∧ σ.speculativeRead = true ∧ σ.waitAsync read = { σ with
        waits := σ.waits + 1
        speculativeRead := false
        jobs := σ.jobs ++ [(some σ.waits, doReadSignalsSync read)] }) := by
  cases hongoing : σ.isWaitOngoing with
  | true => exact .inl ⟨rfl, by simp [waitAsync, hongoing, enqueue]⟩
  | false =>
    refine .inr ?_
    -- the read at once counts only after an event that no wait has taken
    by_cases hasync : (!σ.speculativeRead || isBusy (doReadSignalsSync read)) = true
    · refine .inl ⟨rfl, ?_⟩
      simp only [waitAsync, hongoing, doReadSignalsAsync, hasync]
      simp
    · refine .inr ⟨rfl, ?_, ?_⟩
      · simp only [Bool.or_eq_true, Bool.not_eq_true', not_or, Bool.not_eq_false] at hasync
        exact hasync.1
      · simp only [waitAsync, hongoing, doReadSignalsAsync, hasync]
        simp [enqueue]

/-- A notification is ignored, finds nothing to read, or completes the wait. -/
theorem onReactorEvent_cases (σ : BasicSignalSet) (read : ReadResult) :
    (σ.isWaitOngoing = false ∧ σ.onReactorEvent read = { σ with speculativeRead := true }) ∨
    (σ.isWaitOngoing = true ∧ σ.onReactorEvent read = { σ with speculativeRead := false }) ∨
    (σ.isWaitOngoing = true ∧ σ.onReactorEvent read = { σ with
        speculativeRead := false
        isWaitOngoing := false
        handling := .calling (doReadSignalsSync read) }) := by
  cases hongoing : σ.isWaitOngoing with
  | false => exact .inl ⟨rfl, by simp [onReactorEvent, hongoing]⟩
  | true =>
    refine .inr ?_
    cases hbusy : isBusy (doReadSignalsSync read) with
    | true => exact .inl ⟨rfl, by simp [onReactorEvent, hongoing, doReadSignalsAsync, hbusy]⟩
    | false => exact .inr ⟨rfl, by simp [onReactorEvent, hongoing, doReadSignalsAsync, hbusy]⟩

/-- `OnReactorEvent()` completes an ongoing wait if a signal is there. -/
theorem onReactorEvent_signal (hongoing : σ.isWaitOngoing = true) (signo : ℕ) :
    σ.onReactorEvent (.signal signo) = { σ with
      speculativeRead := false
      isWaitOngoing := false
      handling := .calling (.ok signo) } := by
  simp [onReactorEvent, hongoing, doReadSignalsAsync, doReadSignalsSync, isBusy]

theorem invoke_eq_some {handler : Option ℕ} (h : σ.invoke handler res = some σ') :
    ∃ n, handler = some n ∧ σ' = { σ with invoked := σ.invoked ++ [(n, res)] } := by
  cases handler with
  | none => cases h
  | some n => exact ⟨n, rfl, (Option.some.inj h).symm⟩

/-! ## Steps -/

/-- A handler joins the queue. -/
theorem NoneEmpty.append {n : ℕ} (h : ∀ job ∈ σ.jobs, job.1.isSome) :
    ∀ job ∈ σ.jobs ++ [(some n, res)], job.1.isSome := by
  intro job hjob
  rcases List.mem_append.mp hjob with hold | hnew
  · exact h job hold
  · rw [List.mem_singleton.mp hnew]
    rfl

theorem Inv.waitAsync (h : σ.Inv) (hwindow : ∀ res, σ.handling ≠ .calling res) :
    (σ.waitAsync read).Inv := by
  -- the new handler is queued, behind the others, or becomes the pending one
  have hqueue : (σ.called ++ (σ.queued ++ [σ.waits]) ++ σ.about ++ σ.pending).Perm
      (σ.held ++ [σ.waits]) := by
    refine List.perm_iff_count.mpr fun n => ?_
    simp only [held, List.count_append]
    omega
  obtain ⟨hongoing, heq⟩ | ⟨hongoing, heq⟩ | ⟨hongoing, -, heq⟩ := waitAsync_cases σ read
  · rw [heq]
    refine ⟨h.accounted.add rfl ?_, ⟨NoneEmpty.append h.noneEmpty.1, h.noneEmpty.2⟩,
      h.stored, h.window⟩
    simpa [held, called, queued, about, pending] using hqueue
  · -- there is no pending handler yet that the new one would replace
    rw [heq]
    refine ⟨h.accounted.add rfl ?_, ⟨h.noneEmpty.1, fun res hres => absurd hres (hwindow res)⟩,
      fun _ => rfl, fun res hres => absurd hres (hwindow res)⟩
    rw [held, held, about_of_ne hwindow, pending_of_not_ongoing hongoing, pending_of_ongoing rfl,
      about_of_ne]
    · simp [called, queued]
    · exact hwindow
  · rw [heq]
    refine ⟨h.accounted.add rfl ?_, ⟨NoneEmpty.append h.noneEmpty.1, h.noneEmpty.2⟩,
      h.stored, fun res hres => absurd hres (hwindow res)⟩
    simpa [held, called, queued, about, pending] using hqueue

theorem Inv.onReactorEvent (h : σ.Inv) (hidle : σ.handling = .idle) :
    (σ.onReactorEvent read).Inv := by
  have hwindow (res : WaitResult) : σ.handling ≠ .calling res := by rw [hidle]; simp
  obtain ⟨hongoing, heq⟩ | ⟨hongoing, heq⟩ | ⟨hongoing, heq⟩ := onReactorEvent_cases σ read
  · rw [heq]
    exact ⟨h.accounted, h.noneEmpty, h.stored, fun res hres => absurd hres (hwindow res)⟩
  · rw [heq]
    exact ⟨h.accounted, h.noneEmpty, h.stored, fun res hres => absurd hres (hwindow res)⟩
  · -- the handler of the wait is the one about to be called
    rw [heq]
    refine ⟨h.accounted.of_perm rfl ?_, ⟨h.noneEmpty.1, fun _ _ => h.stored hongoing⟩,
      fun hongoing' => (by cases hongoing'), fun _ _ => ⟨rfl, rfl⟩⟩
    simp [held, called, queued, about, pending, hidle, hongoing]

/-- `OnReactorEvent()` calls the handler that was stored for the wait. -/
theorem Inv.call (h : σ.Inv) (hcalling : σ.handling = .calling res)
    (hσ' : { σ with handling := .callback }.invoke σ.waitCompletionHandler res = some σ') :
    σ'.Inv := by
  obtain ⟨n, hn, rfl⟩ := invoke_eq_some hσ'
  -- no wait has started since the mutex was released
  obtain ⟨hongoing, -⟩ := h.window res hcalling
  refine ⟨h.accounted.of_perm rfl ?_, ⟨h.noneEmpty.1, fun _ hres => by cases hres⟩, h.stored,
    fun _ hres => by cases hres⟩
  have hmove : ((σ.called ++ [n]) ++ σ.queued).Perm (σ.called ++ σ.queued ++ [n]) := by
    refine List.perm_iff_count.mpr fun m => ?_
    simp only [List.count_append]
    omega
  simpa [held, called, queued, about, pending, hcalling, hongoing, hn] using hmove

/-- The executor takes a handler from the queue and calls it. -/
theorem Inv.runJob (h : σ.Inv) {i : ℕ} {job : Option ℕ × WaitResult} (hjob : σ.jobs[i]? = some job)
    (hσ' : { σ with jobs := σ.jobs.eraseIdx i }.invoke job.1 job.2 = some σ') : σ'.Inv := by
  obtain ⟨n, hn, rfl⟩ := invoke_eq_some hσ'
  obtain ⟨hi, hget⟩ := List.getElem?_eq_some_iff.mp hjob
  refine ⟨h.accounted.of_perm rfl ?_,
    ⟨fun job hmem => h.noneEmpty.1 job (List.mem_of_mem_eraseIdx hmem), h.noneEmpty.2⟩,
    h.stored, h.window⟩
  have hqueued : (n :: (σ.jobs.eraseIdx i).filterMap Prod.fst).Perm σ.queued := by
    have hperm := (List.getElem_cons_eraseIdx_perm hi).filterMap Prod.fst
    rwa [hget, List.filterMap_cons_some hn] at hperm
  have hmove : ((σ.called ++ [n]) ++ (σ.jobs.eraseIdx i).filterMap Prod.fst).Perm
      (σ.called ++ σ.queued) := by
    rw [List.append_assoc]
    exact hqueued.append_left _
  have hheld := (hmove.append_right σ.about).append_right σ.pending
  simpa [held, called, queued, about, pending] using hheld

/-- Every undisturbed step keeps the invariant. -/
theorem Inv.step (h : σ.Inv) {a : Action} (hC : σ.Undisturbed a) (hσ' : σ.step a = some σ') :
    σ'.Inv := by
  cases a with
  | waitAsync read =>
    obtain rfl := Option.some.inj hσ'
    exact h.waitAsync hC
  | cancel =>
    -- without an ongoing wait there is nothing to cancel
    obtain rfl := Option.some.inj hσ'
    have hsame : σ.cancel = σ := by
      rw [BasicSignalSet.cancel, if_neg (Bool.not_eq_true _ ▸ hC)]
    rwa [hsame]
  | event read =>
    simp only [BasicSignalSet.step] at hσ'
    split at hσ'
    · rename_i hidle
      obtain rfl := Option.some.inj hσ'
      exact h.onReactorEvent hidle
    · cases hσ'
  | call =>
    simp only [BasicSignalSet.step] at hσ'
    split at hσ'
    · rename_i res hcalling
      exact h.call hcalling hσ'
    · cases hσ'
  | returns =>
    simp only [BasicSignalSet.step] at hσ'
    split at hσ'
    · rename_i hcallback
      obtain rfl := Option.some.inj hσ'
      refine ⟨h.accounted.of_perm rfl ?_, ⟨h.noneEmpty.1, fun _ hres => by cases hres⟩, h.stored,
        fun _ hres => by cases hres⟩
      simp [held, called, queued, about, pending, hcallback]
    · cases hσ'
  | runJob i =>
    simp only [BasicSignalSet.step] at hσ'
    split at hσ'
    · rename_i job hjob
      exact h.runJob hjob hσ'
    · cases hσ'

/-! ## Settling -/

/-- How much is left to do for the reactor and the executor. -/
def work (σ : BasicSignalSet) : ℕ :=
  (if σ.isWaitOngoing then 3 else 0) + σ.jobs.length +
    match σ.handling with
    | .idle => 0
    | .callback => 1
    | .calling _ => 2

/-- As long as the set is not ready, the reactor or the executor can do something. -/
theorem Inv.exists_step (h : σ.Inv) (hready : ¬ σ.Ready) :
    ∃ a σ', σ.step a = some σ' ∧ a.IsInternal ∧ σ.Undisturbed a ∧ σ'.waits = σ.waits ∧
      σ'.work < σ.work := by
  cases hhandling : σ.handling with
  | calling res =>
    obtain ⟨n, hn⟩ := Option.isSome_iff_exists.mp (h.noneEmpty.2 res hhandling)
    have hstep : σ.step .call = some { σ with
        handling := .callback
        invoked := σ.invoked ++ [(n, res)] } := by
      simp [BasicSignalSet.step, hhandling, hn, invoke]
    refine ⟨_, _, hstep, trivial, trivial, rfl, ?_⟩
    simp [work, hhandling]
  | callback =>
    have hstep : σ.step .returns = some { σ with handling := .idle } := by
      simp [BasicSignalSet.step, hhandling]
    refine ⟨_, _, hstep, trivial, trivial, rfl, ?_⟩
    simp [work, hhandling]
  | idle =>
    cases hongoing : σ.isWaitOngoing with
    | true =>
      -- a signal arrives
      have hstep : σ.step (.event (.signal 0)) = some (σ.onReactorEvent (.signal 0)) := by
        simp [BasicSignalSet.step, hhandling]
      rw [onReactorEvent_signal hongoing] at hstep
      refine ⟨_, _, hstep, trivial, trivial, rfl, ?_⟩
      simp only [work, hhandling, hongoing]
      simp
      omega
    | false =>
      cases hjobs : σ.jobs with
      | nil => exact absurd ⟨hongoing, hhandling, hjobs⟩ hready
      | cons job jobs =>
        obtain ⟨n, hn⟩ := Option.isSome_iff_exists.mp (h.noneEmpty.1 job (by simp [hjobs]))
        have hstep : σ.step (.runJob 0) = some { σ with
            jobs := jobs
            invoked := σ.invoked ++ [(n, job.2)] } := by
          simp [BasicSignalSet.step, hjobs, hn, invoke]
        refine ⟨_, _, hstep, trivial, trivial, rfl, ?_⟩
        simp [work, hjobs]

/-- A set that is ready has called all handlers. -/
theorem Inv.allCalled (h : σ.Inv) (hready : σ.Ready) : σ.AllCalled := by
  obtain ⟨hongoing, hhandling, hjobs⟩ := hready
  have haccounted := h.accounted
  simpa [Accounted, AllCalled, held, queued, about, pending, hongoing, hhandling, hjobs] using
    haccounted

theorem Inv.settles (h : σ.Inv) : σ.Settles := by
  have hprogress : ∀ σ₁, (σ₁.waits = σ.waits ∧ σ₁.Inv) → ¬ σ₁.Ready →
      ∃ a σ₂, machine.step σ₁ a = some σ₂ ∧ Machine.Always σ₁ a ∧ a.IsInternal ∧
        (σ₂.waits = σ.waits ∧ σ₂.Inv) ∧ σ₂.work < σ₁.work := by
    rintro σ₁ ⟨hwaits, h₁⟩ hready
    obtain ⟨a, σ₂, hstep, hinternal, hC, hwaits', hless⟩ := h₁.exists_step hready
    exact ⟨a, σ₂, hstep, trivial, hinternal, ⟨hwaits'.trans hwaits, h₁.step hC hstep⟩, hless⟩
  obtain ⟨as, σ', has, hrun, ⟨hwaits, h'⟩, hready⟩ :=
    Machine.exists_run_of_work work hprogress ⟨rfl, h⟩
  exact ⟨as, σ', has, hrun, hwaits, h'.allCalled hready, hready⟩

theorem Inv.keeps (h : σ.Inv) : σ.Keeps := by
  refine ⟨h.accounted, h.noneEmpty, fun hcalled => ?_, h.settles⟩
  -- an ongoing wait would have a handler that is not called
  refine Bool.eq_false_iff.mpr fun hongoing => ?_
  obtain ⟨n, hn⟩ := Option.isSome_iff_exists.mp (h.stored hongoing)
  have hlength := (h.accounted.trans hcalled.symm).length_eq
  simp [held, pending_of_ongoing hongoing, hn] at hlength

/-! ## Disturbances -/

/-- No handler is stored, but a wait counts as ongoing or `OnReactorEvent()` is about to call the
handler. -/
def Emptied (σ : BasicSignalSet) : Prop :=
  σ.waitCompletionHandler = none ∧
    (σ.isWaitOngoing = true ∨ ∃ res, σ.handling = .calling res)

/-- Only a new wait could store a handler again. -/
theorem Emptied.step (h : σ.Emptied) {a : Action} (ha : a.IsInternal) (hσ' : σ.step a = some σ') :
    σ'.Emptied := by
  obtain ⟨hempty, hbusy⟩ := h
  cases a with
  | waitAsync read => cases ha
  | cancel => cases ha
  | event read =>
    simp only [BasicSignalSet.step] at hσ'
    split at hσ'
    · rename_i hidle
      obtain rfl := Option.some.inj hσ'
      have hongoing : σ.isWaitOngoing = true := by
        rcases hbusy with hongoing | ⟨res, hcalling⟩
        · exact hongoing
        · rw [hidle] at hcalling
          cases hcalling
      obtain ⟨hnot, -⟩ | ⟨-, heq⟩ | ⟨-, heq⟩ := onReactorEvent_cases σ read
      · rw [hongoing] at hnot
        cases hnot
      · rw [heq]
        exact ⟨hempty, .inl hongoing⟩
      · rw [heq]
        exact ⟨hempty, .inr ⟨_, rfl⟩⟩
    · cases hσ'
  | call =>
    -- there is nothing to call
    simp only [BasicSignalSet.step] at hσ'
    split at hσ'
    · rw [hempty] at hσ'
      cases hσ'
    · cases hσ'
  | returns =>
    simp only [BasicSignalSet.step] at hσ'
    split at hσ'
    · rename_i hcallback
      obtain rfl := Option.some.inj hσ'
      rcases hbusy with hongoing | ⟨res, hcalling⟩
      · exact ⟨hempty, .inl hongoing⟩
      · rw [hcallback] at hcalling
        cases hcalling
    · cases hσ'
  | runJob i =>
    simp only [BasicSignalSet.step] at hσ'
    split at hσ'
    · obtain ⟨n, -, rfl⟩ := invoke_eq_some hσ'
      exact ⟨hempty, hbusy⟩
    · cases hσ'

theorem Emptied.not_settles (h : σ.Emptied) : ¬ σ.Settles := by
  rintro ⟨as, σ', has, hrun, -, -, hongoing, hidle, -⟩
  have hemptied : σ'.Emptied := by
    refine Machine.run_invariant (I := Emptied) h hrun ?_
    intro σ₁ a σ₂ ha h₁ _ hstep
    exact h₁.step (has a ha) hstep
  -- a set that is ready has no wait and calls no handler
  obtain ⟨-, hongoing' | ⟨res, hcalling⟩⟩ := hemptied
  · rw [hongoing] at hongoing'
    cases hongoing'
  · rw [hidle] at hcalling
    cases hcalling

/-- A wait that is cancelled counts as ongoing for ever. -/
theorem not_keeps_cancel (hongoing : σ.isWaitOngoing = true) : ¬ σ.cancel.Keeps := by
  intro hkeeps
  have hempty : σ.cancel.Emptied := by
    rw [cancel, if_pos hongoing]
    exact ⟨rfl, .inl hongoing⟩
  exact hempty.not_settles hkeeps.settles

/-- In the window a new wait replaces the handler that is about to be called. -/
theorem Inv.not_keeps_waitAsync (h : σ.Inv) (hcalling : σ.handling = .calling res) :
    ¬ (σ.waitAsync read).Keeps := by
  intro hkeeps
  obtain ⟨hongoing, hspec⟩ := h.window res hcalling
  obtain ⟨hongoing', -⟩ | ⟨-, heq⟩ | ⟨-, hspec', -⟩ := waitAsync_cases σ read
  · rw [hongoing] at hongoing'
    cases hongoing'
  · -- the new handler would be called twice
    have habout : (σ.waitAsync read).about = [σ.waits] := by
      rw [heq]
      simp [about, hcalling]
    have hpending : (σ.waitAsync read).pending = [σ.waits] := by
      rw [heq]
      rfl
    have hwaits : (σ.waitAsync read).waits = σ.waits + 1 := by rw [heq]
    -- every number below `waits` occurs once in the range, but this one is held twice
    have hcount := hkeeps.accounted.count_eq σ.waits
    have hrange := List.nodup_iff_count.mp (List.nodup_range (n := σ.waits + 1)) σ.waits
    rw [held, habout, hpending, hwaits] at hcount
    simp only [List.count_append, List.count_singleton_self] at hcount
    omega
  · rw [hspec] at hspec'
    cases hspec'

/-- A step keeps what the signal set owes its clients if and only if it is undisturbed. -/
theorem Inv.keeps_step_iff (h : σ.Inv) {a : Action} (hσ' : σ.step a = some σ') :
    σ'.Keeps ↔ σ.Undisturbed a := by
  refine ⟨fun hkeeps => ?_, fun hC => (h.step hC hσ').keeps⟩
  cases a with
  | waitAsync read =>
    intro res hcalling
    obtain rfl := Option.some.inj hσ'
    exact h.not_keeps_waitAsync hcalling hkeeps
  | cancel =>
    obtain rfl := Option.some.inj hσ'
    exact Bool.eq_false_iff.mpr fun hongoing => not_keeps_cancel hongoing hkeeps
  | _ => trivial

/-- In a run of a signal set, it keeps at all times what it owes its clients if and only if no
ongoing wait is cancelled and no wait starts while `OnReactorEvent()` has released the mutex and not
yet called the handler. -/
theorem waits_settle_iff (as : List Action) :
    machine.Along (fun _ _ σ' => σ'.Keeps) {} as ↔
      machine.Along (fun σ a _ => σ.Undisturbed a) {} as := by
  refine Machine.along_iff_of_invariant (I := Inv) Inv.init ?_ ?_
  · intro σ a σ' h hσ'
    exact h.keeps_step_iff hσ'
  · intro σ a σ' h hσ' hkeeps
    exact h.step ((h.keeps_step_iff hσ').mp hkeeps) hσ'

/-- A wait is cancelled and its handler is called. The next wait is refused although no other one is
pending, and another `Cancel()` queues an empty handler. -/
theorem waits_settle_cancelled :
    ∃ σ, machine.Reachable σ ∧ σ.invoked = [(0, .error .operationCancelled)] ∧ σ.waits = 1 ∧
      (σ.waitAsync .wouldBlock).jobs = [(some 1, .error .asyncOperationInProgress)] ∧
      σ.cancel.jobs = [(none, .error .operationCancelled)] ∧ ¬ σ.Keeps := by
  have hσ := Machine.reachableIn_get_run (M := machine) (C := Machine.Always)
    (l := [.waitAsync .wouldBlock, .cancel, .runJob 0]) rfl (by decide)
  refine ⟨_, hσ, by decide, by decide, by decide, by decide, fun hkeeps => ?_⟩
  have hcalled : [0].Perm (List.range 1) := .refl _
  exact absurd (hkeeps.renewable hcalled) (by decide)

end BasicSignalSet

end Asrt.SignalSet
