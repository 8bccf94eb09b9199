import Asrt.Strand.Basic
import Asrt.ToMathlib.UpdateSum

/-!
# The runner of a strand

The right to run jobs of a strand is a token. It is held by a call of `ExecutePendingJobs()`, by a
posted call of it, or by a `Post()` that is about to post one; `is_running_` says whether the token
exists, and there is never more than one (`Runs`). This needs nothing of the callers.

So a strand with pending jobs has exactly one runner. `Runs.of_reachable` has this for every
reachable state.
-/

namespace Asrt.Strand

open ToMathlib (sum_update_add le_sum)

variable {T S J : Type}

section Tokens

variable [DecidableEq S]

/-- The frame holds the token of the strand. -/
def Frame.token (s : S) : Frame S J → Bool
  | .draining s' | .posting s' => s' = s
  | _ => false

/-- The operation carries the token of the strand. -/
def Operation.token (s : S) : Operation S J → Bool
  | .executePendingJobs s' => s' = s
  | _ => false

/-- The tokens of the strand a thread holds. -/
def Thread.tokens (s : S) (th : Thread S J) : ℕ :=
  th.stack.countP (Frame.token s) + th.privateOpQueue.countP (Operation.token s)

/-- The tokens of the strand. -/
def State.tokens [Fintype T] (σ : State T S J) (s : S) : ℕ :=
  σ.operationQueue.countP (Operation.token s) + ∑ t, (σ.threads t).tokens s

end Tokens

namespace State

variable [Fintype T] [DecidableEq T] [DecidableEq S]
variable {σ σ' : State T S J} {t : T} {th : Thread S J} {s : S} {j : J}

/-- `is_running_` stands for the runner of the strand, and jobs are pending only if there is one. -/
structure Runs (σ : State T S J) : Prop where
  /-- `is_running_` counts the tokens of the strand. -/
  tokens : ∀ s, σ.tokens s = (σ.strands s).isRunning.toNat
  /-- Pending jobs have a runner. -/
  jobs : ∀ s, (σ.strands s).jobs ≠ [] → (σ.strands s).isRunning = true

/-- A step that replaces thread `t` keeps the runners if it moves tokens, or makes and destroys them
together with `is_running_`, and leaves no pending job without one. -/
theorem Runs.update (h : σ.Runs) (hthreads : σ'.threads = Function.update σ.threads t th)
    (htokens : ∀ s, σ'.operationQueue.countP (Operation.token s) + th.tokens s +
        (σ.strands s).isRunning.toNat =
      σ.operationQueue.countP (Operation.token s) + (σ.threads t).tokens s +
        (σ'.strands s).isRunning.toNat)
    (hjobs : ∀ s, (σ'.strands s).jobs ≠ [] → (σ'.strands s).isRunning = true) : σ'.Runs := by
  refine ⟨fun s => ?_, hjobs⟩
  have hold := h.tokens s
  have hsum := sum_update_add (Thread.tokens s) σ.threads t th
  have hnew := htokens s
  simp only [State.tokens, hthreads] at hold ⊢
  omega

omit [DecidableEq T] in
/-- A thread that holds a token of the strand finds it running. -/
theorem Runs.isRunning_of_mem (h : σ.Runs) {f : Frame S J} (hf : f ∈ (σ.threads t).stack)
    (htoken : f.token s = true) : (σ.strands s).isRunning = true := by
  have hpos : 0 < (σ.threads t).tokens s :=
    Nat.add_pos_left (List.countP_pos_iff.mpr ⟨f, hf, htoken⟩) _
  have hle := le_sum (Thread.tokens s) σ.threads t
  have htok := h.tokens s
  simp only [State.tokens] at htok
  refine Bool.eq_true_of_not_eq_false fun hfalse => ?_
  rw [hfalse, Bool.toNat_false] at htok
  omega

/-! ## The steps -/

/-- A worker that takes an operation takes the token it carries. -/
theorem Runs.take (h : σ.Runs) (hstack : (σ.threads t).stack = [])
    (hσ' : σ.take t = some σ') : σ'.Runs := by
  simp only [State.take] at hσ'
  split at hσ'
  · cases hσ'
  -- a plain job carries no token
  · rename_i hq
    obtain rfl := Option.some.inj hσ'
    refine h.update (t := t) rfl (fun s => ?_) h.jobs
    simp [setThread, Thread.tokens, hstack, hq, Frame.token, Operation.token]
  · rename_i s' ops hq
    obtain rfl := Option.some.inj hσ'
    refine h.update (t := t) rfl (fun s => ?_) h.jobs
    simp [setThread, Thread.tokens, hstack, hq, Frame.token, Operation.token, List.countP_cons]
    omega

/-- Posting a plain job moves no token. -/
theorem Runs.postPlain (h : σ.Runs) (t : T) (j : J) : (σ.executorPost t (.plain j)).Runs := by
  simp only [executorPost]
  split
  · refine h.update (t := t) rfl (fun s => ?_) h.jobs
    simp [setThread, Thread.tokens, Operation.token]
  · refine h.update (t := t) (Function.update_eq_self t σ.threads).symm (fun s => ?_) h.jobs
    simp [Operation.token]

omit [Fintype T] [DecidableEq T] in
/-- A strand that runs has no pending job without a runner. -/
theorem jobs_setStrand (hjobs : ∀ s, (σ.strands s).jobs ≠ [] → (σ.strands s).isRunning = true)
    (s : S) (info : StrandInfo J) (hinfo : info.isRunning = true) (s' : S)
    (hne : ((σ.setStrand s info).strands s').jobs ≠ []) :
    ((σ.setStrand s info).strands s').isRunning = true := by
  by_cases hs : s' = s
  · subst hs
    simpa [setStrand] using hinfo
  · simp only [setStrand, Function.update_of_ne hs] at hne ⊢
    exact hjobs s' hne

/-- A strand that is running takes further jobs without a token being made. -/
theorem Runs.enqueue (h : σ.Runs) (hrun : (σ.strands s).isRunning = true) (t : T)
    (jobs : List J) : (σ.setStrand s { jobs, isRunning := true }).Runs := by
  refine h.update (t := t) (Function.update_eq_self t σ.threads).symm (fun s' => ?_)
    (jobs_setStrand h.jobs s _ rfl)
  by_cases hs : s' = s
  · subst hs
    simp [setStrand, hrun]
  · simp [setStrand, Function.update_of_ne hs]

/-- A thread that finds the strand not running makes its token. -/
theorem Runs.makeToken (h : σ.Runs) (hidle : (σ.strands s).isRunning = false) (jobs : List J)
    (htokens : ∀ s', th.tokens s' = (σ.threads t).tokens s' + if s = s' then 1 else 0) :
    ((σ.setStrand s { jobs, isRunning := true }).setThread t th).Runs := by
  refine h.update (t := t) rfl (fun s' => ?_) (jobs_setStrand h.jobs s _ rfl)
  rw [htokens s']
  by_cases hs : s' = s
  · subst hs
    simp only [setThread, setStrand, Function.update_self, hidle, ↓reduceIte, Bool.toNat_false,
      Bool.toNat_true]
    omega
  · simp [setThread, setStrand, Function.update_of_ne hs, Ne.symm hs]

/-- `Post()` on a strand that is not running makes a token and keeps it. -/
theorem Runs.post (h : σ.Runs) (t : T) (s : S) (j : J) : (σ.post t s j).Runs := by
  simp only [State.post]
  split
  · rename_i hnot
    refine h.makeToken (by simpa using hnot) _ ?_
    -- the new frame is the `Post()` that will post the runner
    intro s'
    simp only [Thread.tokens, List.countP_cons, Frame.token, decide_eq_true_eq]
    omega
  · rename_i hrun
    exact h.enqueue (by simpa using hrun) t _

/-- The `executor_.Post()` of `Strand::Post()` hands the token over. -/
theorem Runs.postRunner (h : σ.Runs) {rest : List (Frame S J)}
    (hstack : (σ.threads t).stack = .posting s :: rest) :
    ((σ.setThread t { σ.threads t with stack := rest }).executorPost t
      (.executePendingJobs s)).Runs := by
  simp only [executorPost]
  split
  · have hthreads : (((σ.setThread t { σ.threads t with stack := rest })).setThread t
        { σ.threads t with
          stack := rest
          privateOpQueue := (σ.threads t).privateOpQueue ++ [.executePendingJobs s] }).threads =
        Function.update σ.threads t { σ.threads t with
          stack := rest
          privateOpQueue := (σ.threads t).privateOpQueue ++ [.executePendingJobs s] } := by
      simp [setThread]
    simp only [setThread, Function.update_self] at hthreads ⊢
    refine h.update (t := t) hthreads (fun s' => ?_) h.jobs
    simp [Thread.tokens, hstack, Frame.token, Operation.token, List.countP_cons]
    omega
  · refine h.update (t := t) rfl (fun s' => ?_) h.jobs
    simp [setThread, Thread.tokens, hstack, Frame.token, Operation.token, List.countP_cons]
    omega

/-- A frame returns, with the token it held, if any. -/
theorem Runs.popFrame (h : σ.Runs) {σ₁ : State T S J} {rest : List (Frame S J)}
    (hthreads : σ₁.threads = σ.threads) (hqueue : σ₁.operationQueue = σ.operationQueue)
    (hprivate : th.privateOpQueue = (σ.threads t).privateOpQueue)
    (htokens : ∀ s, rest.countP (Frame.token s) + (σ.strands s).isRunning.toNat =
      (σ.threads t).stack.countP (Frame.token s) + (σ₁.strands s).isRunning.toNat)
    (hjobs : ∀ s, (σ₁.strands s).jobs ≠ [] → (σ₁.strands s).isRunning = true) :
    (σ₁.popFrame t th rest).Runs := by
  simp only [State.popFrame, setThread, hthreads]
  split
  -- the tokens of the private queue move to the shared one
  · refine h.update (t := t) rfl (fun s => ?_) hjobs
    have htok := htokens s
    simp only [Thread.tokens, hqueue, hprivate, List.countP_append, List.countP_nil]
    omega
  · refine h.update (t := t) rfl (fun s => ?_) hjobs
    have htok := htokens s
    simp only [Thread.tokens, hqueue, hprivate]
    omega

/-- A job returns. -/
theorem Runs.finish (h : σ.Runs) {f : Frame S J} {rest : List (Frame S J)}
    (hstack : (σ.threads t).stack = f :: rest) (hf : ∀ s, f.token s = false) :
    (σ.popFrame t (σ.threads t) rest).Runs := by
  refine h.popFrame rfl rfl rfl (fun s => ?_) h.jobs
  rw [hstack, List.countP_cons_of_neg (by simp [hf])]

/-- `Dispatch()` makes a token, enqueues, or runs the job inline. -/
theorem Runs.dispatch (h : σ.Runs) (t : T) (s : S) (j : J) : (σ.dispatch t s j).Runs := by
  simp only [State.dispatch]
  split
  -- outside of `Run()` it is a `Post()`
  · exact h.post t s j
  split
  · refine h.update (t := t) rfl (fun s' => ?_) h.jobs
    simp [setThread, Thread.tokens, Frame.token]
  split
  · rename_i hnot
    refine h.makeToken (by simpa using hnot) _ ?_
    -- the loop that will follow the job holds the token, the job itself does not
    intro s'
    simp only [Thread.tokens, List.countP_cons, Frame.token, decide_eq_true_eq,
      Bool.false_eq_true, ↓reduceIte]
    omega
  · rename_i hrun
    exact h.enqueue (by simpa using hrun) t _

/-- The loop of `ExecutePendingJobs()` runs the next job above itself, or returns the token. -/
theorem Runs.next (h : σ.Runs) {rest : List (Frame S J)}
    (hstack : (σ.threads t).stack = .draining s :: rest) : (σ.next t s rest).Runs := by
  have hrun : (σ.strands s).isRunning = true :=
    h.isRunning_of_mem (t := t) (by rw [hstack]; exact List.mem_cons_self) (by simp [Frame.token])
  simp only [State.next]
  split
  · rename_i j jobs hjobs
    refine h.update (t := t) rfl (fun s' => ?_)
      (jobs_setStrand h.jobs s { σ.strands s with jobs } hrun)
    by_cases hs : s' = s
    · subst hs
      simp [setThread, setStrand, Thread.tokens, Frame.token, hstack]
    · simp [setThread, setStrand, Thread.tokens, Frame.token, hstack, Function.update_of_ne hs]
  -- no job is left: the loop is the token that `is_running_` stands for, and both go
  · rename_i hnil
    refine h.popFrame rfl rfl rfl (fun s' => ?_) fun s' hne => ?_
    · by_cases hs : s' = s
      · subst hs
        simp [setStrand, hstack, hrun, Frame.token]
      · simp [setStrand, hstack, Frame.token, Function.update_of_ne hs, Ne.symm hs]
    · by_cases hs : s' = s
      · subst hs
        simp [setStrand, hnil] at hne
      · simp only [setStrand, Function.update_of_ne hs] at hne ⊢
        exact h.jobs s' hne

/-- Every step keeps the runners. -/
theorem Runs.step (h : σ.Runs) {a : Action T S J} (hσ' : σ.step a = some σ') : σ'.Runs := by
  cases a with
  | enterRun t | leaveRun t =>
    obtain ⟨-, hσ'⟩ := Option.ite_none_right_eq_some.mp hσ'
    obtain rfl := Option.some.inj hσ'
    exact h.update (t := t) rfl (fun _ => rfl) h.jobs
  | take t =>
    obtain ⟨hstack, hσ'⟩ := Option.ite_none_right_eq_some.mp hσ'
    exact h.take hstack.1 hσ'
  | postPlain t j =>
    obtain ⟨-, hσ'⟩ := Option.ite_none_right_eq_some.mp hσ'
    obtain rfl := Option.some.inj hσ'
    exact h.postPlain t j
  | post t s j =>
    obtain ⟨-, hσ'⟩ := Option.ite_none_right_eq_some.mp hσ'
    obtain rfl := Option.some.inj hσ'
    exact h.post t s j
  | postRunner t =>
    simp only [State.step] at hσ'
    split at hσ'
    · rename_i hstack
      obtain rfl := Option.some.inj hσ'
      exact h.postRunner hstack
    · cases hσ'
  | dispatch t s j =>
    obtain ⟨-, hσ'⟩ := Option.ite_none_right_eq_some.mp hσ'
    obtain rfl := Option.some.inj hσ'
    exact h.dispatch t s j
  | next t =>
    simp only [State.step] at hσ'
    split at hσ'
    · rename_i hstack
      obtain rfl := Option.some.inj hσ'
      exact h.next hstack
    · cases hσ'
  | finish t =>
    simp only [State.step] at hσ'
    split at hσ'
    · rename_i hstack
      obtain rfl := Option.some.inj hσ'
      exact h.finish hstack fun _ => rfl
    · rename_i hstack
      obtain rfl := Option.some.inj hσ'
      exact h.finish hstack fun _ => rfl
    · cases hσ'

omit [DecidableEq T] in
/-- Before anything is posted no strand runs. -/
theorem Runs.init : ({} : State T S J).Runs where
  tokens s := by simp [State.tokens, Thread.tokens]
  jobs _ h := absurd rfl h

/-- The runners are in order in every reachable state. -/
theorem Runs.of_reachable (hσ : (machine T S J).Reachable σ) : σ.Runs :=
  hσ.invariant (fun _ h => h ▸ Runs.init) fun _ _ _ h _ hσ' => h.step hσ'

end State

end Asrt.Strand
