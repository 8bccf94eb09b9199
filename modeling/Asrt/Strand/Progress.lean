import Asrt.Strand.Runner
import Mathlib.Algebra.Ring.Nat

/-!
# The progress of strands

While a strand has a runner, some thread can go on by itself: a job returns, a loop goes on, a
`Post()` posts its runner, or a worker takes an operation. Each of these leaves less to do
(`State.work`): a job that waits in `jobs_` is worth two steps of the loop that will run it, and
jobs without a runner do not count.

## Main results

* `State.Tidy`: a private queue holds operations only while its thread runs one, so a worker that
  runs nothing keeps no runner to itself.
* `State.exists_step`: as long as some strand has a runner, there is a step of this kind.
-/

namespace Asrt.Strand

open ToMathlib (sum_update_add sum_add_le_of_ne)

variable {T S J : Type}

/-! ## Private queues -/

/-- The thread has operations in its private queue only while it runs one, and what the executor
calls is not a `Post()`. -/
structure Thread.Tidy (th : Thread S J) : Prop where
  privateOpQueue : th.privateOpQueue = [] ∨ th.isExecutorContext = true ∧ th.stack ≠ []
  bottom : th.isExecutorContext = true → ∀ s, th.stack.getLast? ≠ some (.posting s)

namespace Thread

variable {th : Thread S J} {s : S}

/-- User code in the executor is above something that the executor calls. -/
theorem stack_ne_nil (huser : th.isUserCode = true) (hctx : th.isExecutorContext = true) :
    th.stack ≠ [] := by
  intro hstack
  simp [isUserCode, hstack, hctx] at huser

/-- A frame on top of others, with or without the marker. -/
theorem Tidy.push (h : th.Tidy) {f : Frame S J} {b : Bool}
    (hne : th.isExecutorContext = true → th.stack ≠ []) :
    ({ th with contextMarker := b, stack := f :: th.stack } : Thread S J).Tidy := by
  refine ⟨h.privateOpQueue.imp_right fun hp => ⟨hp.1, List.cons_ne_nil _ _⟩, fun hctx s => ?_⟩
  obtain ⟨g, rest, hstack⟩ := List.exists_cons_of_ne_nil (hne hctx)
  have hbottom := h.bottom hctx s
  simp only [hstack] at hbottom ⊢
  rwa [List.getLast?_cons_cons]

/-- A frame below the others is as it was. -/
theorem getLast?_ne_of_cons {f g : Frame S J} {rest : List (Frame S J)}
    (h : (f :: rest).getLast? ≠ some g) : rest.getLast? ≠ some g := by
  cases rest with
  | nil => simp
  | cons r rest => rwa [List.getLast?_cons_cons] at h

end Thread

namespace State

variable [DecidableEq T] [DecidableEq S]
variable {σ σ' : State T S J} {t : T} {th : Thread S J} {s : S} {j : J}

/-- Every thread is so. -/
def Tidy (σ : State T S J) : Prop := ∀ t, (σ.threads t).Tidy

omit [DecidableEq S] in
/-- A step that replaces one thread. -/
theorem Tidy.update (h : σ.Tidy) (hthreads : σ'.threads = Function.update σ.threads t th)
    (hth : th.Tidy) : σ'.Tidy := by
  intro u
  rw [hthreads]
  by_cases hu : u = t
  · subst hu
    rwa [Function.update_self]
  · rw [Function.update_of_ne hu]
    exact h u

omit [DecidableEq T] [DecidableEq S] in
/-- A step that moves no thread. -/
theorem Tidy.congr (h : σ.Tidy) (hthreads : σ'.threads = σ.threads) : σ'.Tidy := by
  intro u
  rw [hthreads]
  exact h u

omit [DecidableEq S] in
/-- A thread that is inside `Run()`, or not, while it runs nothing. -/
theorem Tidy.setContext (h : σ.Tidy) (hstack : (σ.threads t).stack = []) (b : Bool) :
    (σ.setThread t { σ.threads t with isExecutorContext := b }).Tidy := by
  refine h.update rfl ⟨(h t).privateOpQueue.imp_right fun hp => absurd hstack hp.2, fun _ s => ?_⟩
  simp [hstack]

omit [DecidableEq S] in
/-- A worker that takes an operation. -/
theorem Tidy.take (h : σ.Tidy) (hstack : (σ.threads t).stack = []) (hσ' : σ.take t = some σ') :
    σ'.Tidy := by
  have hprivate : (σ.threads t).privateOpQueue = [] :=
    (h t).privateOpQueue.resolve_right fun hp => hp.2 hstack
  simp only [State.take] at hσ'
  split at hσ'
  · cases hσ'
  all_goals
    obtain rfl := Option.some.inj hσ'
    exact h.update (t := t) rfl ⟨.inl hprivate, fun _ s => by simp⟩

omit [DecidableEq S] in
/-- User code posts a plain job. -/
theorem Tidy.postPlain (h : σ.Tidy) (huser : (σ.threads t).isUserCode = true) (j : J) :
    (σ.executorPost t (.plain j)).Tidy := by
  simp only [State.executorPost]
  split
  · rename_i hctx
    exact h.update rfl ⟨.inr ⟨hctx, Thread.stack_ne_nil huser hctx⟩, (h t).bottom⟩
  · exact h.congr rfl

/-- User code posts through a strand. -/
theorem Tidy.post (h : σ.Tidy) (huser : (σ.threads t).isUserCode = true) (s : S) (j : J) :
    (σ.post t s j).Tidy := by
  simp only [State.post]
  split
  · exact h.update (t := t) rfl ((h t).push (Thread.stack_ne_nil huser))
  · exact h.congr rfl

omit [DecidableEq S] in
/-- The `executor_.Post()` of `Strand::Post()`. -/
theorem Tidy.postRunner (h : σ.Tidy) {rest : List (Frame S J)}
    (hstack : (σ.threads t).stack = .posting s :: rest) :
    ((σ.setThread t { σ.threads t with stack := rest }).executorPost t
      (.executePendingJobs s)).Tidy := by
  have hlast (hctx : (σ.threads t).isExecutorContext = true) (s' : S) :
      rest.getLast? ≠ some (.posting s') :=
    Thread.getLast?_ne_of_cons (f := .posting s) (hstack ▸ (h t).bottom hctx s')
  simp only [State.executorPost, setThread, Function.update_self]
  split
  · rename_i hctx
    have hne : rest ≠ [] := by
      rintro rfl
      exact (h t).bottom hctx s (by rw [hstack]; rfl)
    exact h.update (t := t) (Function.update_idem _ _ _) ⟨.inr ⟨hctx, hne⟩, hlast⟩
  · rename_i hctx
    refine h.update (t := t) rfl ⟨(h t).privateOpQueue.imp_right fun hp => absurd hp.1 hctx, ?_⟩
    exact fun hctx' => absurd hctx' hctx

omit [DecidableEq S] in
/-- A frame returns. -/
theorem Tidy.popFrame (h : σ.Tidy) {σ₁ : State T S J} {f : Frame S J} {rest : List (Frame S J)}
    (hthreads : σ₁.threads = σ.threads) (hstack : (σ.threads t).stack = f :: rest)
    (hprivate : th.privateOpQueue = (σ.threads t).privateOpQueue)
    (hctx : th.isExecutorContext = (σ.threads t).isExecutorContext) :
    (σ₁.popFrame t th rest).Tidy := by
  have hlast (hin : th.isExecutorContext = true) (s : S) : rest.getLast? ≠ some (.posting s) :=
    Thread.getLast?_ne_of_cons (f := f) (hstack ▸ (h t).bottom (hctx ▸ hin) s)
  simp only [State.popFrame, setThread, hthreads]
  split
  · exact h.update (t := t) rfl ⟨.inl rfl, hlast⟩
  · rename_i hnot
    refine h.update (t := t) rfl ⟨?_, hlast⟩
    refine (h t).privateOpQueue.imp (hprivate.trans ·) fun hp => ?_
    have hin : th.isExecutorContext = true := hctx.trans hp.1
    exact ⟨hin, fun hnil => hnot ⟨hnil, hin⟩⟩

/-- User code dispatches into a strand. -/
theorem Tidy.dispatch (h : σ.Tidy) (huser : (σ.threads t).isUserCode = true) (s : S) (j : J) :
    (σ.dispatch t s j).Tidy := by
  simp only [State.dispatch]
  split
  · exact h.post huser s j
  split
  · exact h.update (t := t) rfl ((h t).push (Thread.stack_ne_nil huser))
  split
  · exact h.update (t := t) rfl
      (((h t).push (b := true) (Thread.stack_ne_nil huser)).push fun _ => List.cons_ne_nil _ _)
  · exact h.congr rfl

/-- An iteration of the loop. -/
theorem Tidy.next (h : σ.Tidy) {rest : List (Frame S J)}
    (hstack : (σ.threads t).stack = .draining s :: rest) : (σ.next t s rest).Tidy := by
  simp only [State.next]
  split
  · refine h.update (t := t) rfl ?_
    rw [← hstack]
    exact (h t).push fun _ => by simp [hstack]
  · exact h.popFrame rfl hstack rfl rfl

/-- Every step keeps the threads so. -/
theorem Tidy.step (h : σ.Tidy) {a : Action T S J} (hσ' : σ.step a = some σ') : σ'.Tidy := by
  cases a with
  | enterRun t | leaveRun t =>
    obtain ⟨hstack, hσ'⟩ := Option.ite_none_right_eq_some.mp hσ'
    obtain rfl := Option.some.inj hσ'
    exact h.setContext hstack.1 _
  | take t =>
    obtain ⟨hstack, hσ'⟩ := Option.ite_none_right_eq_some.mp hσ'
    exact h.take hstack.1 hσ'
  | postPlain t j =>
    obtain ⟨huser, hσ'⟩ := Option.ite_none_right_eq_some.mp hσ'
    obtain rfl := Option.some.inj hσ'
    exact h.postPlain huser j
  | post t s j =>
    obtain ⟨huser, hσ'⟩ := Option.ite_none_right_eq_some.mp hσ'
    obtain rfl := Option.some.inj hσ'
    exact h.post huser s j
  | postRunner t =>
    simp only [State.step] at hσ'
    split at hσ'
    · rename_i hstack
      obtain rfl := Option.some.inj hσ'
      exact h.postRunner hstack
    · cases hσ'
  | dispatch t s j =>
    obtain ⟨huser, hσ'⟩ := Option.ite_none_right_eq_some.mp hσ'
    obtain rfl := Option.some.inj hσ'
    exact h.dispatch huser s j
  | next t =>
    simp only [State.step] at hσ'
    split at hσ'
    · rename_i hstack
      obtain rfl := Option.some.inj hσ'
      exact h.next hstack
    · cases hσ'
  | finish t =>
    simp only [State.step] at hσ'
    split at hσ'
    · rename_i hstack
      obtain rfl := Option.some.inj hσ'
      exact h.popFrame rfl hstack rfl rfl
    · rename_i hstack
      obtain rfl := Option.some.inj hσ'
      exact h.popFrame rfl hstack rfl rfl
    · cases hσ'

omit [DecidableEq T] [DecidableEq S] in
/-- At the start no thread runs anything. -/
theorem Tidy.init : ({} : State T S J).Tidy := fun _ => ⟨.inl rfl, fun h => nomatch h⟩

/-! ## The work that is left -/

end State

section Work

variable (pending : S → ℕ)

/-- The steps that a frame still makes, with so many jobs pending for each strand. -/
def Frame.work : Frame S J → ℕ
  | .plain _ | .job _ _ => 1
  | .draining s => 2 * pending s + 1
  | .posting s => 2 * pending s + 3

/-- The steps that an operation still takes. -/
def Operation.work : Operation S J → ℕ
  | .plain _ => 2
  | .executePendingJobs s => 2 * pending s + 2

/-- The steps that the operations of a queue still take. -/
def queueWork (ops : List (Operation S J)) : ℕ := (ops.map (Operation.work pending)).sum

/-- The steps that a thread still makes, entering `Run()` included. -/
def Thread.work (th : Thread S J) : ℕ :=
  (th.stack.map (Frame.work pending)).sum + queueWork pending th.privateOpQueue +
    (!th.isExecutorContext).toNat

variable {pending} {pending' : S → ℕ}

@[simp] theorem queueWork_append (ops ops' : List (Operation S J)) :
    queueWork pending (ops ++ ops') = queueWork pending ops + queueWork pending ops' := by
  simp [queueWork]

@[simp] theorem queueWork_cons (op : Operation S J) (ops : List (Operation S J)) :
    queueWork pending (op :: ops) = op.work pending + queueWork pending ops := by
  simp [queueWork]

@[simp] theorem queueWork_nil : queueWork pending ([] : List (Operation S J)) = 0 := rfl

/-- Fewer pending jobs are less work for a queue. -/
theorem queueWork_mono (h : ∀ s, pending s ≤ pending' s) (ops : List (Operation S J)) :
    queueWork pending ops ≤ queueWork pending' ops := by
  refine List.sum_le_sum fun op _ => ?_
  cases op with
  | plain _ => exact le_rfl
  | executePendingJobs s =>
    have hs := h s
    simp only [Operation.work]
    omega

/-- Fewer pending jobs are less work for the frames of a thread. -/
theorem sum_work_mono (h : ∀ s, pending s ≤ pending' s) (stack : List (Frame S J)) :
    (stack.map (Frame.work pending)).sum ≤ (stack.map (Frame.work pending')).sum := by
  refine List.sum_le_sum fun f _ => ?_
  cases f with
  | plain _ | job _ _ => exact le_rfl
  | draining s | posting s =>
    have hs := h s
    simp only [Frame.work]
    omega

/-- Fewer pending jobs are less work for a thread. -/
theorem Thread.work_mono (h : ∀ s, pending s ≤ pending' s) (th : Thread S J) :
    th.work pending ≤ th.work pending' := by
  have hstack := sum_work_mono h th.stack
  have hprivate := queueWork_mono h th.privateOpQueue
  simp only [Thread.work]
  omega

end Work

namespace State

variable [DecidableEq T] [DecidableEq S] [Fintype T]
variable {σ σ' : State T S J} {t : T} {th : Thread S J} {s : S}

/-- The number of jobs in `jobs_` of each strand. -/
def pending (σ : State T S J) (s : S) : ℕ := (σ.strands s).jobs.length

/-- The steps that are left until every strand has lost its runner. -/
def work (σ : State T S J) : ℕ :=
  queueWork σ.pending σ.operationQueue + ∑ t, (σ.threads t).work σ.pending

omit [DecidableEq S] in
/-- A step of one thread that makes no job pending leaves less work if this thread and the shared
queue have less. -/
theorem work_lt {pending' : S → ℕ} (hthreads : σ'.threads = Function.update σ.threads t th)
    (hpending' : σ'.pending = pending') (hpending : ∀ s, pending' s ≤ σ.pending s)
    (hless : queueWork pending' σ'.operationQueue + th.work pending' <
      queueWork σ.pending σ.operationQueue + (σ.threads t).work σ.pending) : σ'.work < σ.work := by
  have hupdate : σ'.threads t = th := by rw [hthreads, Function.update_self]
  have hsum := sum_add_le_of_ne (f := fun u => (σ'.threads u).work pending')
    (g := fun u => (σ.threads u).work σ.pending) (i := t) fun u hu => by
      rw [hthreads, Function.update_of_ne hu]
      exact Thread.work_mono hpending _
  rw [hupdate] at hsum
  rw [work, hpending', work]
  omega

omit [DecidableEq S] in
/-- A frame that returns leaves less work. -/
theorem work_popFrame {σ₁ : State T S J} {f : Frame S J} {rest : List (Frame S J)}
    (hthreads : σ₁.threads = σ.threads) (hqueue : σ₁.operationQueue = σ.operationQueue)
    (hpending : σ₁.pending = σ.pending) (hstack : (σ.threads t).stack = f :: rest)
    (hprivate : th.privateOpQueue = (σ.threads t).privateOpQueue)
    (hctx : th.isExecutorContext = (σ.threads t).isExecutorContext) :
    (σ₁.popFrame t th rest).work < σ.work := by
  have hf : 0 < f.work σ.pending := by cases f <;> simp [Frame.work]
  simp only [State.popFrame, setThread, hthreads]
  split
  -- the private queue becomes part of the shared one
  · refine work_lt (t := t) rfl hpending (fun _ => le_rfl) ?_
    simp only [Thread.work, hqueue, hstack, hprivate, hctx, queueWork_append, queueWork_nil,
      List.map_cons, List.sum_cons]
    omega
  · refine work_lt (t := t) rfl hpending (fun _ => le_rfl) ?_
    simp only [Thread.work, hqueue, hstack, hprivate, hctx, List.map_cons, List.sum_cons]
    omega

/-- An iteration of the loop leaves less work. -/
theorem work_next {rest : List (Frame S J)} (hstack : (σ.threads t).stack = .draining s :: rest) :
    (σ.next t s rest).work < σ.work := by
  simp only [State.next]
  split
  · rename_i j jobs hjobs
    -- the loop starts one of the jobs that were pending
    have hpending (s' : S) : ((σ.setStrand s { σ.strands s with jobs := jobs }).setThread t
        { σ.threads t with stack := .job s j :: .draining s :: rest }).pending s' ≤
        σ.pending s' := by
      by_cases hs : s' = s
      · subst hs
        simp [pending, setThread, setStrand, hjobs]
      · simp [pending, setThread, setStrand, Function.update_of_ne hs]
    refine work_lt (t := t) rfl rfl hpending ?_
    have hqueue := queueWork_mono hpending σ.operationQueue
    have hprivate := queueWork_mono hpending (σ.threads t).privateOpQueue
    have hrest := sum_work_mono hpending rest
    have hself : ((σ.setStrand s { σ.strands s with jobs := jobs }).setThread t
        { σ.threads t with stack := .job s j :: .draining s :: rest }).pending s + 1 =
        σ.pending s := by
      simp [pending, setThread, setStrand, hjobs]
    simp only [Thread.work, hstack, List.map_cons, List.sum_cons, Frame.work]
    simp only [setThread, setStrand] at hqueue hprivate hrest hself ⊢
    omega
  · rename_i hjobs
    refine work_popFrame rfl rfl ?_ hstack rfl rfl
    funext s'
    by_cases hs : s' = s
    · subst hs
      simp [pending, setStrand, hjobs]
    · simp [pending, setStrand, Function.update_of_ne hs]

omit [DecidableEq S] in
/-- A `Post()` that posts its runner leaves less work. -/
theorem work_postRunner {rest : List (Frame S J)}
    (hstack : (σ.threads t).stack = .posting s :: rest) :
    ((σ.setThread t { σ.threads t with stack := rest }).executorPost t
      (.executePendingJobs s)).work < σ.work := by
  simp only [State.executorPost, setThread, Function.update_self]
  split
  · refine work_lt (t := t) (Function.update_idem _ _ _) (show _ = σ.pending from rfl)
      (fun _ => le_rfl) ?_
    simp only [Thread.work, hstack, queueWork_append, queueWork_cons, queueWork_nil, List.map_cons,
      List.sum_cons, Frame.work, Operation.work]
    omega
  · refine work_lt (t := t) rfl (show _ = σ.pending from rfl) (fun _ => le_rfl) ?_
    simp only [Thread.work, hstack, queueWork_append, queueWork_cons, queueWork_nil, List.map_cons,
      List.sum_cons, Frame.work, Operation.work]
    omega

omit [DecidableEq S] in
/-- A worker that runs nothing takes an operation, if there is one, and this leaves less work. -/
theorem exists_take (hstack : (σ.threads t).stack = []) (hqueue : σ.operationQueue ≠ []) :
    ∃ σ', σ.take t = some σ' ∧ σ'.work < σ.work := by
  obtain ⟨op, ops, hops⟩ := List.exists_cons_of_ne_nil hqueue
  simp only [State.take, hops]
  cases op with
  | plain j =>
    refine ⟨_, rfl, work_lt (t := t) rfl (show _ = σ.pending from rfl) (fun _ => le_rfl) ?_⟩
    simp only [Thread.work, hstack, hops, queueWork_cons, setThread, Operation.work]
    simp only [List.map_cons, List.map_nil, List.sum_cons, List.sum_nil, Frame.work]
    omega
  | executePendingJobs s =>
    refine ⟨_, rfl, work_lt (t := t) rfl (show _ = σ.pending from rfl) (fun _ => le_rfl) ?_⟩
    simp only [Thread.work, hstack, hops, queueWork_cons, setThread, Operation.work]
    simp only [List.map_cons, List.map_nil, List.sum_cons, List.sum_nil, Frame.work]
    omega

end State

/-- A step that needs no call by user code: a worker enters `Run()` or takes an operation, a
`Post()` posts its runner, the loop goes on, or a job returns. -/
def Action.Internal : Action T S J → Prop
  | .enterRun _ | .take _ | .postRunner _ | .next _ | .finish _ => True
  | .leaveRun _ | .postPlain _ _ | .post _ _ _ | .dispatch _ _ _ => False

namespace State

variable [DecidableEq T] [DecidableEq S] [Fintype T]
variable {σ σ' : State T S J} {t : T} {s : S}

/-- A thread that runs something can go on. -/
theorem exists_step_of_stack (hstack : (σ.threads t).stack ≠ []) :
    ∃ a σ', σ.step a = some σ' ∧ a.Internal ∧ σ'.work < σ.work := by
  obtain ⟨f, rest, hcons⟩ := List.exists_cons_of_ne_nil hstack
  cases f with
  | plain j | job s j =>
    exact ⟨.finish t, _, by simp only [State.step, hcons], trivial,
      work_popFrame rfl rfl rfl hcons rfl rfl⟩
  | draining s =>
    exact ⟨.next t, _, by simp only [State.step, hcons], trivial, work_next hcons⟩
  | posting s =>
    exact ⟨.postRunner t, _, by simp only [State.step, hcons], trivial, work_postRunner hcons⟩

omit [DecidableEq S] in
/-- A thread that runs nothing enters `Run()`, which leaves less work. -/
theorem work_enterRun (hctx : (σ.threads t).isExecutorContext = false) :
    (σ.setThread t { σ.threads t with isExecutorContext := true }).work < σ.work := by
  refine work_lt (t := t) rfl (show _ = σ.pending from rfl) (fun _ => le_rfl) ?_
  simp only [Thread.work, hctx, setThread, Bool.not_true, Bool.not_false, Bool.toNat_false,
    Bool.toNat_true]
  omega

/-- While some strand has a runner, some thread can go on. -/
theorem exists_step (h : σ.Tidy) (hs : σ.tokens s ≠ 0) (t : T) :
    ∃ a σ', σ.step a = some σ' ∧ a.Internal ∧ σ'.work < σ.work := by
  by_cases hstacks : ∃ u, (σ.threads u).stack ≠ []
  · obtain ⟨u, hu⟩ := hstacks
    exact exists_step_of_stack hu
  simp only [ne_eq, not_exists, not_not] at hstacks
  -- nobody runs anything, so the runner is in the shared queue
  have hidle (u : T) : (σ.threads u).tokens s = 0 := by
    have hprivate := (h u).privateOpQueue.resolve_right fun hp => hp.2 (hstacks u)
    simp [Thread.tokens, hstacks u, hprivate]
  have hqueue : σ.operationQueue ≠ [] := by
    intro hnil
    exact hs (by simp [State.tokens, hnil, hidle])
  cases hctx : (σ.threads t).isExecutorContext with
  | false =>
    refine ⟨.enterRun t, _, ?_, trivial, work_enterRun hctx⟩
    simp [State.step, hstacks t, hctx]
  | true =>
    obtain ⟨σ', htake, hless⟩ := exists_take (hstacks t) hqueue
    exact ⟨.take t, σ', by simp [State.step, hstacks t, hctx, htake], trivial, hless⟩

end State

end Asrt.Strand
