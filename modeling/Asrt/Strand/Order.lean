import Asrt.Strand.Progress

/-!
# The order of the jobs of a strand

`History` records which jobs were appended to `jobs_` and which the loop of `ExecutePendingJobs()`
has started; a job is started when its frame is put on the stack of the thread.

## Main results

* `State.jobs_of_step`: what a step appends goes to the back of `jobs_`, and the job that the loop
  starts comes from its front.
* `strand_order`: the jobs of a strand run in the order of appending and none is lost or run twice.
  What was appended is what was run followed by what is still in `jobs_`; while `jobs_` is not empty
  there is one runner; and the threads can by themselves run everything that was appended.
* `strand_order_post_window`: between the critical section of `Post()` and its `executor_.Post()`
  the runner is not yet pending in the executor.
-/

namespace Asrt.Strand

open ToMathlib (Machine)

variable {T S J : Type}

namespace State

variable [DecidableEq T] [DecidableEq S]
variable {σ σ' : State T S J} {t : T} {th : Thread S J} {s : S} {j : J}

/-! ## Appending and running -/

/-- The job a step appends to `jobs_` of the strand, if any. -/
def appended (σ : State T S J) (a : Action T S J) (s : S) : List J :=
  match a with
  | .post _ s' j => if s' = s then [j] else []
  | .dispatch t s' j =>
    -- inside `Run()` the job is appended only if the strand runs elsewhere
    if s' = s ∧ (!(σ.threads t).isExecutorContext ||
        (!(σ.threads t).contextMarker && (σ.strands s).isRunning)) then [j] else []
  | _ => []

/-- The job of the strand that an iteration of the loop starts, if any: the frame that the step from
`σ` to `σ'` puts on the stack of its thread. -/
def ran (σ : State T S J) (a : Action T S J) (σ' : State T S J) (s : S) : List J :=
  match a with
  | .next t =>
    if (σ'.threads t).stack.length = (σ.threads t).stack.length + 1 then
      match (σ'.threads t).stack with
      | .job s' j :: _ => if s' = s then [j] else []
      | _ => []
    else []
  | _ => []

omit [DecidableEq T] in
/-- Appending a job to one strand. -/
theorem jobs_setStrand_append (s s' : S) (j : J) (b : Bool) :
    ((σ.setStrand s { jobs := (σ.strands s).jobs ++ [j], isRunning := b }).strands s').jobs =
      (σ.strands s').jobs ++ if s = s' then [j] else [] := by
  by_cases hs : s' = s
  · subst hs
    simp [setStrand]
  · simp [setStrand, Function.update_of_ne hs, Ne.symm hs]

/-- `Post()` appends its job. -/
theorem jobs_post (t : T) (s s' : S) (j : J) :
    ((σ.post t s j).strands s').jobs =
      (σ.strands s').jobs ++ if s = s' then [j] else [] := by
  simp only [State.post]
  split <;> exact jobs_setStrand_append s s' j true

/-- `Dispatch()` appends its job or runs it. -/
theorem jobs_dispatch (t : T) (s s' : S) (j : J) :
    ((σ.dispatch t s j).strands s').jobs =
      (σ.strands s').jobs ++ σ.appended (.dispatch t s j) s' := by
  simp only [State.dispatch, appended]
  split
  · rename_i hctx
    rw [jobs_post]
    simp [hctx]
  rename_i hctx
  split
  · rename_i hmarker
    simp [hctx, hmarker, setThread]
  rename_i hmarker
  split
  · -- a strand that was not running runs the job at once
    rename_i hidle
    by_cases hs : s' = s
    · subst hs
      simp_all [setThread, setStrand]
    · simp [setThread, setStrand, Function.update_of_ne hs, Ne.symm hs]
  · rename_i hrun
    rw [jobs_setStrand_append]
    by_cases hs : s = s'
    · subst hs
      simp_all
    · simp [hs]

omit [DecidableEq S] in
/-- A frame that returns leaves the strands alone. -/
@[simp] theorem strands_popFrame (t : T) (th : Thread S J) (rest : List (Frame S J)) :
    (σ.popFrame t th rest).strands = σ.strands := by
  simp only [State.popFrame]
  split <;> rfl

omit [DecidableEq S] in
/-- A frame that returns uncovers the ones below. -/
@[simp] theorem stack_popFrame (t : T) (th : Thread S J) (rest : List (Frame S J)) :
    ((σ.popFrame t th rest).threads t).stack = rest := by
  simp only [State.popFrame]
  split <;> simp [setThread]

/-- The loop takes the first job, if there is one, and starts it. -/
theorem jobs_next {rest : List (Frame S J)} (hstack : (σ.threads t).stack = .draining s :: rest)
    (s' : S) :
    (σ.strands s').jobs =
      σ.ran (.next t) (σ.next t s rest) s' ++ ((σ.next t s rest).strands s').jobs := by
  cases hjobs : (σ.strands s).jobs with
  | cons j jobs =>
    simp only [ran, State.next, hjobs, hstack]
    by_cases hs : s' = s
    · subst hs
      simp [setThread, setStrand, hjobs]
    · simp [setThread, setStrand, Function.update_of_ne hs, Ne.symm hs]
  | nil =>
    -- the loop returns, and the stack is shorter
    have hran : σ.ran (.next t) (σ.next t s rest) s' = [] := by
      simp only [ran, State.next, hjobs, hstack, stack_popFrame]
      exact if_neg fun hlength => by simp only [List.length_cons] at hlength; omega
    rw [hran, List.nil_append]
    simp only [State.next, hjobs, strands_popFrame]
    by_cases hs : s' = s
    · subst hs
      simp [setStrand, hjobs]
    · simp [setStrand, Function.update_of_ne hs]

omit [DecidableEq S] in
/-- `executor.Post()` leaves the strands alone. -/
@[simp] theorem strands_executorPost (t : T) (op : Operation S J) :
    (σ.executorPost t op).strands = σ.strands := by
  simp only [State.executorPost]
  split <;> rfl

/-- What a step appends goes to the back of `jobs_`, and what the loop starts comes from its
front. -/
theorem jobs_of_step {a : Action T S J} (hσ' : σ.step a = some σ') (s : S) :
    (σ.strands s).jobs ++ σ.appended a s = σ.ran a σ' s ++ (σ'.strands s).jobs := by
  cases a with
  | enterRun t | leaveRun t =>
    obtain ⟨-, hσ'⟩ := Option.ite_none_right_eq_some.mp hσ'
    obtain rfl := Option.some.inj hσ'
    exact List.append_nil _
  | take t =>
    obtain ⟨-, hσ'⟩ := Option.ite_none_right_eq_some.mp hσ'
    simp only [State.take] at hσ'
    split at hσ'
    · cases hσ'
    all_goals
      obtain rfl := Option.some.inj hσ'
      exact List.append_nil _
  | postPlain t j =>
    obtain ⟨-, hσ'⟩ := Option.ite_none_right_eq_some.mp hσ'
    obtain rfl := Option.some.inj hσ'
    rw [strands_executorPost]
    exact List.append_nil _
  | post t s' j =>
    obtain ⟨-, hσ'⟩ := Option.ite_none_right_eq_some.mp hσ'
    obtain rfl := Option.some.inj hσ'
    exact (jobs_post t s' s j).symm
  | postRunner t =>
    simp only [State.step] at hσ'
    split at hσ'
    · obtain rfl := Option.some.inj hσ'
      rw [strands_executorPost]
      exact List.append_nil _
    · cases hσ'
  | dispatch t s' j =>
    obtain ⟨-, hσ'⟩ := Option.ite_none_right_eq_some.mp hσ'
    obtain rfl := Option.some.inj hσ'
    exact (jobs_dispatch t s' s j).symm
  | next t =>
    simp only [State.step] at hσ'
    split at hσ'
    · rename_i hstack
      obtain rfl := Option.some.inj hσ'
      exact (List.append_nil _).trans (jobs_next hstack s)
    · cases hσ'
  | finish t =>
    simp only [State.step] at hσ'
    split at hσ'
    · obtain rfl := Option.some.inj hσ'
      rw [strands_popFrame]
      exact List.append_nil _
    · obtain rfl := Option.some.inj hσ'
      rw [strands_popFrame]
      exact List.append_nil _
    · cases hσ'

end State

/-- The jobs of each strand that were appended to `jobs_` and that its loop has run, in order. -/
structure History (S J : Type) where
  appended : S → List J := fun _ => []
  ran : S → List J := fun _ => []

/-- Note what a step appends and runs. -/
def History.record [DecidableEq S] (h : History S J) (σ : State T S J) (a : Action T S J)
    (σ' : State T S J) : History S J where
  appended s := h.appended s ++ σ.appended a s
  ran s := h.ran s ++ σ.ran a σ' s

/-- The strands with their history. -/
def historyMachine (T S J : Type) [DecidableEq T] [DecidableEq S] :
    Machine (State T S J × History S J) (Action T S J) where
  init p := p = ({}, {})
  step p a := (p.1.step a).map fun σ' => (σ', p.2.record p.1 a σ')

section Order

variable [DecidableEq T] [DecidableEq S]

/-- A state with a history is a reachable state. -/
theorem reachable_of_history {p : State T S J × History S J}
    (hp : (historyMachine T S J).Reachable p) : (machine T S J).Reachable p.1 := by
  refine hp.invariant (I := fun p => (machine T S J).Reachable p.1) (fun p hinit => ?_)
    fun p a p' h _ hp' => ?_
  · exact .init (congrArg Prod.fst hinit)
  · obtain ⟨σ', hσ', rfl⟩ := Option.map_eq_some_iff.mp hp'
    exact .step h trivial hσ'

/-- What was appended is what was run followed by what is still pending. -/
def Ordered (p : State T S J × History S J) : Prop :=
  ∀ s, p.2.appended s = p.2.ran s ++ (p.1.strands s).jobs

/-- Every step keeps the order. -/
theorem Ordered.step {p p' : State T S J × History S J} {a : Action T S J} (h : Ordered p)
    (hp' : (historyMachine T S J).step p a = some p') : Ordered p' := by
  obtain ⟨σ', hσ', rfl⟩ := Option.map_eq_some_iff.mp hp'
  intro s
  show p.2.appended s ++ p.1.appended a s = (p.2.ran s ++ p.1.ran a σ' s) ++ (σ'.strands s).jobs
  rw [h s, List.append_assoc, State.jobs_of_step hσ' s, List.append_assoc]

/-- The jobs are in order in every reachable state. -/
theorem ordered_of_reachable {p : State T S J × History S J}
    (hp : (historyMachine T S J).Reachable p) : Ordered p := by
  refine hp.invariant (fun p hinit => ?_) fun p a p' h _ hp' => h.step hp'
  rw [show p = ({}, {}) from hinit]
  exact fun s => rfl

/-- What the progress of the strands rests on. -/
structure Inv [Fintype T] (p : State T S J × History S J) : Prop where
  runs : p.1.Runs
  tidy : p.1.Tidy
  ordered : Ordered p

/-- The invariant holds in every reachable state. -/
theorem Inv.of_reachable [Fintype T] {p : State T S J × History S J}
    (hp : (historyMachine T S J).Reachable p) : Inv p where
  runs := State.Runs.of_reachable (reachable_of_history hp)
  tidy := (reachable_of_history hp).invariant (fun _ h => h ▸ State.Tidy.init)
    fun _ _ _ h _ hσ' => h.step hσ'
  ordered := ordered_of_reachable hp

variable [Fintype T] {p p' : State T S J × History S J} {s : S}

omit [DecidableEq T] in
/-- A strand without a runner has run everything that was appended. -/
theorem Inv.ran_eq (h : Inv p) (htokens : p.1.tokens s = 0) :
    p.2.ran s = p.2.appended s := by
  have hnil : (p.1.strands s).jobs = [] := by
    by_contra hne
    rw [h.runs.tokens s, h.runs.jobs s hne] at htokens
    cases htokens
  rw [h.ordered s, hnil, List.append_nil]

omit [Fintype T] in
/-- The steps that need no call by user code append nothing. -/
theorem appended_of_internal {a : Action T S J} (ha : a.Internal)
    (hp' : (historyMachine T S J).step p a = some p') : p'.2.appended = p.2.appended := by
  obtain ⟨σ', -, rfl⟩ := Option.map_eq_some_iff.mp hp'
  funext s
  have hnil : p.1.appended a s = [] := by
    cases a with
    | post _ _ _ | dispatch _ _ _ => exact ha.elim
    | _ => rfl
  show p.2.appended s ++ p.1.appended a s = p.2.appended s
  rw [hnil, List.append_nil]

/-- The threads can run everything that was appended, without a further call by user code. -/
theorem Inv.exists_run (h : Inv p) (t : T) :
    ∃ as p', (∀ a ∈ as, a.Internal) ∧ (historyMachine T S J).run Machine.Always p as = some p' ∧
      p'.2.appended = p.2.appended ∧ p'.2.ran = p.2.appended := by
  have hprogress : ∀ q : State T S J × History S J,
      (Inv q ∧ q.2.appended = p.2.appended) → ¬ (∀ s, q.1.tokens s = 0) →
      ∃ a q', (historyMachine T S J).step q a = some q' ∧ Machine.Always q a ∧ a.Internal ∧
        (Inv q' ∧ q'.2.appended = p.2.appended) ∧ q'.1.work < q.1.work := by
    rintro q ⟨hq, happended⟩ hnot
    obtain ⟨s, hs⟩ := not_forall.mp hnot
    obtain ⟨a, σ', hσ', ha, hless⟩ := State.exists_step hq.tidy hs t
    have hstep : (historyMachine T S J).step q a = some (σ', q.2.record q.1 a σ') := by
      simp only [historyMachine, hσ', Option.map_some]
    exact ⟨a, _, hstep, trivial, ha, ⟨⟨hq.runs.step hσ', hq.tidy.step hσ', hq.ordered.step hstep⟩,
      (appended_of_internal ha hstep).trans happended⟩, hless⟩
  obtain ⟨as, p', has, hrun, ⟨hp', happended⟩, htokens⟩ :=
    Machine.exists_run_of_work (fun q : State T S J × History S J => q.1.work) hprogress ⟨h, rfl⟩
  refine ⟨as, p', has, hrun, happended, ?_⟩
  rw [← happended]
  exact funext fun s => hp'.ran_eq (htokens s)

/-- Strand order and no loss. For any threads that post and dispatch, in every reachable state of
every strand: what was appended to `jobs_` is what the loop has run, in this order, followed by what
is still in `jobs_`; while `jobs_` is not empty, `is_running_` is true and exactly one runner is
about to be posted, pending in the executor or active; without a runner everything appended was run;
and the threads can by themselves get to a state in which this is so. -/
theorem strand_order (hp : (historyMachine T S J).Reachable p) (s : S) :
    p.2.appended s = p.2.ran s ++ (p.1.strands s).jobs ∧
    ((p.1.strands s).jobs ≠ [] → (p.1.strands s).isRunning = true ∧ p.1.tokens s = 1) ∧
    (p.1.tokens s = 0 → p.2.ran s = p.2.appended s) ∧
    ∃ as p', (∀ a ∈ as, a.Internal) ∧ (historyMachine T S J).run Machine.Always p as = some p' ∧
      p'.2.appended = p.2.appended ∧ p'.2.ran = p.2.appended := by
  have h := Inv.of_reachable hp
  refine ⟨h.ordered s, fun hjobs => ?_, h.ran_eq, ?_⟩
  · have hrun := h.runs.jobs s hjobs
    exact ⟨hrun, by rw [h.runs.tokens s, hrun]; rfl⟩
  rcases isEmpty_or_nonempty T with hT | ⟨⟨t⟩⟩
  · -- without a thread nothing has been appended
    cases hp with
    | init hinit =>
      obtain rfl : p = ({}, {}) := hinit
      exact ⟨[], _, by simp, rfl, rfl, rfl⟩
    | @step q _ a _ _ _ => cases a <;> exact isEmptyElim ‹T›
  · exact h.exists_run t

end Order

/-- Two threads post to one strand; the runner has run the first job and is at the second. -/
theorem strand_order_two_posts :
    ∃ p : State (Fin 2) (Fin 1) ℕ × History (Fin 1) ℕ,
      (historyMachine (Fin 2) (Fin 1) ℕ).Reachable p ∧ p.2.appended 0 = [5, 6, 7] ∧
      (p.1.strands 0).jobs = [7] ∧ p.2.appended 0 = p.2.ran 0 ++ (p.1.strands 0).jobs ∧
      p.1.tokens 0 = 1 ∧ ∃ as p', (∀ a ∈ as, a.Internal) ∧
        (historyMachine (Fin 2) (Fin 1) ℕ).run Machine.Always p as = some p' ∧
        p'.2.ran 0 = [5, 6, 7] := by
  have hp := Machine.reachableIn_get_run (M := historyMachine (Fin 2) (Fin 1) ℕ)
    (C := Machine.Always) (s := ({}, {}))
    (l := [.post 0 0 5, .post 1 0 6, .postRunner 0, .enterRun 0, .take 0, .next 0, .dispatch 1 0 7,
      .finish 0, .next 0]) rfl (by decide)
  obtain ⟨horder, hrunner, -, as, p', has, hrun, -, hran⟩ := strand_order hp 0
  refine ⟨_, hp, by decide, by decide, horder, (hrunner (by decide)).2, as, p', has, hrun, ?_⟩
  rw [hran]
  decide

/-- The frame is the loop of the strand. -/
def Frame.isLoop [DecidableEq S] (s : S) : Frame S J → Bool
  | .draining s' => s' = s
  | _ => false

/-- The runners that are pending in the executor or active. -/
def State.executorRunners [Fintype T] [DecidableEq S] (σ : State T S J) (s : S) : ℕ :=
  σ.operationQueue.countP (Operation.token s) +
    ∑ t, ((σ.threads t).privateOpQueue.countP (Operation.token s) +
      (σ.threads t).stack.countP (Frame.isLoop s))

/-- Between the critical section of `Post()` and its `executor_.Post()` the strand has a pending job
and is running, but its runner is neither pending in the executor nor active. -/
theorem strand_order_post_window :
    ∃ p : State (Fin 1) (Fin 1) ℕ × History (Fin 1) ℕ,
      (historyMachine (Fin 1) (Fin 1) ℕ).Reachable p ∧ (p.1.strands 0).jobs ≠ [] ∧
      p.1.executorRunners 0 ≠ 1 := by
  have hp := Machine.reachableIn_get_run (M := historyMachine (Fin 1) (Fin 1) ℕ)
    (C := Machine.Always) (s := ({}, {})) (l := [.post 0 0 5]) rfl (by decide)
  exact ⟨_, hp, by decide, by decide⟩

end Asrt.Strand
