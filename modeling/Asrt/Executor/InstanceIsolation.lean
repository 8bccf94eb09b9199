import Asrt.Executor.Instances
import Asrt.ToMathlib.UpdateSum
import Mathlib.Algebra.Ring.Nat
import Mathlib.Algebra.BigOperators.Group.List.Basic

/-!
# Isolation of executors

`State.Isolated` says that the operations of an executor stay with it: what is queued in it, held by
its calls of `Run()` and `RunOne()` or executed by them was posted or dispatched to it, and its
counters count exactly these operations.

`isolation` proves it of all runs in which `Post()` and `Dispatch()` are not called while the
thread's context is the `ThreadInfo` of another executor. `isolation_foreign_context` is a run with
such a call: a job of one executor posts to another one, and the operation lands in the private
queue and the private counter of the first.
-/

namespace Asrt.Instances

open Executor (OpId RunMode fetchAdd fetchSub)
open ToMathlib (sum_update_add)

variable {T E : Type}

/-- The operation a call is executing. -/
def Phase.operation : Phase E → Option (Operation E)
  | running operation => some operation
  | _ => none

/-- The operations a call holds: those in its private queue and the one it executes. -/
def Frame.operations (f : Frame E) : List (Operation E) :=
  f.phase.operation.toList ++ f.info.privateOpQueue

/-- A call without an operation has nothing in its `ThreadInfo` that is not accounted for. -/
def Frame.Settled (f : Frame E) : Prop :=
  match f.phase with
  | .processing => f.info = {}
  | .running _ => True
  | .accounted => f.info.privateJobCount = 0

section Counting

variable [DecidableEq E]

/-- The jobs of the executor in the private counter of a call. -/
def Frame.counted (e : E) (f : Frame E) : ℕ := if f.executor = e then f.info.privateJobCount else 0

/-- The operations a call of the executor holds. -/
def Frame.outstanding (e : E) (f : Frame E) : ℕ := if f.executor = e then f.operations.length else 0

/-- The jobs of the executor in the private counters of a thread. -/
def Thread.counted (e : E) (th : Thread E) : ℕ := (th.stack.map (Frame.counted e)).sum

/-- The operations that a thread is posting to the executor or that its calls hold. -/
def Thread.outstanding (e : E) (th : Thread E) : ℕ :=
  (th.posting.toList.filter (·.target = e)).length + (th.stack.map (Frame.outstanding e)).sum

variable [Fintype T]

/-- The jobs of the executor: `job_count_` and the private counters of its calls. -/
def State.counted (s : State T E) (e : E) : ℕ :=
  (s.executors e).jobCount + ∑ t, (s.threads t).counted e

/-- The operations with the executor: queued, held by its calls or being posted to it. -/
def State.outstanding (s : State T E) (e : E) : ℕ :=
  (s.executors e).operationQueue.length + ∑ t, (s.threads t).outstanding e

end Counting

/-- Every executor has only operations that were posted or dispatched to it, and counts exactly
these. -/
structure State.Isolated [Fintype T] [DecidableEq E] (s : State T E) : Prop where
  /-- What is queued was posted to this executor. -/
  queued : ∀ e, ∀ o ∈ (s.executors e).operationQueue, o.target = e
  /-- What a call holds, in its private queue or executing, was posted to its executor. -/
  held : ∀ t, ∀ f ∈ (s.threads t).stack, ∀ o ∈ f.operations, o.target = f.executor
  /-- What a call executed, posted or dispatched, was meant for its executor. -/
  executed : ∀ x ∈ s.executed, x.1.target = x.2
  /-- The operations with an executor are counted in its `job_count_`, or in the private counters of
  its calls, as the 32-bit counters can. -/
  counted : ∀ e, s.counted e % 2 ^ 32 = s.outstanding e % 2 ^ 32

/-- The fold queues nothing. -/
theorem Members.fold_operationQueue (m : Members E) (privateJobCount : ℕ) :
    (m.fold privateJobCount).operationQueue = m.operationQueue := by
  unfold fold
  split
  · rfl
  split <;> rfl

/-- The fold counts the private jobs and ends one. -/
theorem Members.fold_jobCount (m : Members E) (privateJobCount : ℕ) :
    ((m.fold privateJobCount).jobCount + 1) % 2 ^ 32 = (m.jobCount + privateJobCount) % 2 ^ 32 := by
  unfold fold
  split
  · simp only [fetchAdd]
    omega
  split
  · simp only [fetchSub]
    omega
  · omega

namespace State

variable [Fintype T] [DecidableEq T] [DecidableEq E] {s s' : State T E} {t : T} {th : Thread E}

/-- The invariant: isolation, with the calls between two operations settled. -/
structure Inv (s : State T E) : Prop extends Isolated s where
  settled : ∀ t, ∀ f ∈ (s.threads t).stack, f.Settled

/-- A step that replaces thread `t` keeps the invariant if it keeps the operations with their
executors and counts what it moves. -/
theorem Inv.update (h : s.Inv) (hthreads : s'.threads = Function.update s.threads t th)
    (hqueued : ∀ e, ∀ o ∈ (s'.executors e).operationQueue, o.target = e)
    (hheld : ∀ f ∈ th.stack, ∀ o ∈ f.operations, o.target = f.executor)
    (hsettled : ∀ f ∈ th.stack, f.Settled)
    (hexecuted : ∀ x ∈ s'.executed, x.1.target = x.2)
    (hcounted : ∀ e, ((s'.executors e).jobCount + th.counted e +
        ((s.executors e).operationQueue.length + (s.threads t).outstanding e)) % 2 ^ 32 =
      ((s.executors e).jobCount + (s.threads t).counted e +
        ((s'.executors e).operationQueue.length + th.outstanding e)) % 2 ^ 32) : s'.Inv := by
  have hthread (P : Thread E → Prop) (hold : ∀ u, P (s.threads u)) (hnew : P th) (u : T) :
      P (s'.threads u) := by
    rw [hthreads]
    by_cases hu : u = t
    · subst hu
      rwa [Function.update_self]
    · rw [Function.update_of_ne hu]
      exact hold u
  refine ⟨⟨hqueued, hthread (fun th => ∀ f ∈ th.stack, ∀ o ∈ f.operations, o.target = f.executor)
    h.held hheld, hexecuted, fun e => ?_⟩, hthread (fun th => ∀ f ∈ th.stack, f.Settled) h.settled
    hsettled⟩
  have hold := h.counted e
  have hnew := hcounted e
  have hcount := sum_update_add (Thread.counted e) s.threads t th
  have hout := sum_update_add (Thread.outstanding e) s.threads t th
  simp only [State.counted, State.outstanding, hthreads] at hold ⊢
  omega

/-! ## The steps -/

/-- `Stop()` and `Restart()` move no operation. -/
theorem Inv.setStop (h : s.Inv) (t : T) (e : E) (b : Bool) :
    (s.setMembers e { s.executors e with stopRequested := b }).Inv := by
  have hmembers (e' : E) :
      ((s.setMembers e { s.executors e with stopRequested := b }).executors e').operationQueue =
        (s.executors e').operationQueue ∧
      ((s.setMembers e { s.executors e with stopRequested := b }).executors e').jobCount =
        (s.executors e').jobCount := by
    by_cases he : e' = e
    · subst he
      simp [setMembers]
    · simp [setMembers, Function.update_of_ne he]
  refine h.update (t := t) (Function.update_eq_self t s.threads).symm (fun e' => ?_) (h.held t)
    (h.settled t) h.executed fun e' => ?_
  · rw [(hmembers e').1]
    exact h.queued e'
  · rw [(hmembers e').1, (hmembers e').2]

/-- A call that holds nothing returns. -/
theorem Inv.leave (h : s.Inv) {f : Frame E} {rest : List (Frame E)}
    (hstack : (s.threads t).stack = f :: rest) (hcount : f.info.privateJobCount = 0)
    (hops : f.operations = []) : (s.leave t rest).Inv := by
  have hheld := h.held t
  have hsettled := h.settled t
  rw [hstack, List.forall_mem_cons] at hheld hsettled
  refine h.update (t := t) rfl h.queued hheld.2 hsettled.2 h.executed fun e => ?_
  simp [State.leave, Thread.counted, Thread.outstanding, hstack, Frame.counted,
    Frame.outstanding, hcount, hops]

/-- A call enters with an empty `ThreadInfo`. -/
theorem Inv.enter (h : s.Inv) (t : T) (e : E) (mode : RunMode) : (s.enter t e mode).Inv := by
  simp only [State.enter]
  split
  · exact h.setStop t e true
  · refine h.update (t := t) rfl h.queued ?_ ?_ h.executed fun e' => ?_
    · refine List.forall_mem_cons.mpr ⟨fun o ho => ?_, h.held t⟩
      simp [Frame.operations, Phase.operation] at ho
    · exact List.forall_mem_cons.mpr ⟨rfl, h.settled t⟩
    · simp [Thread.counted, Thread.outstanding, Frame.counted, Frame.outstanding,
        Frame.operations, Phase.operation]

/-- An iteration of the loop moves an operation from the queue into the call. -/
theorem Inv.processNext (h : s.Inv) {f : Frame E} {rest : List (Frame E)}
    (hstack : (s.threads t).stack = f :: rest) (hphase : f.phase = .processing)
    (hs' : s.processNext t f rest = some s') : s'.Inv := by
  have hheld := h.held t
  have hsettled := h.settled t
  rw [hstack, List.forall_mem_cons] at hheld hsettled
  -- between two operations the call holds nothing
  have hinfo : f.info = {} := by simpa [Frame.Settled, hphase] using hsettled.1
  have hops : f.operations = [] := by simp [Frame.operations, Phase.operation, hphase, hinfo]
  have hleave : (s.leave t rest).Inv := h.leave hstack (by rw [hinfo]) hops
  simp only [State.processNext] at hs'
  split at hs'
  · obtain rfl := Option.some.inj hs'
    exact hleave
  split at hs'
  · rename_i operation queue hqueue
    obtain rfl := Option.some.inj hs'
    -- the operation was queued with the executor whose call takes it
    have htarget : operation.target = f.executor :=
      h.queued f.executor operation (by rw [hqueue]; exact List.mem_cons_self)
    refine h.update (t := t) rfl (fun e o ho => ?_) ?_ ?_ ?_ fun e => ?_
    · by_cases he : e = f.executor
      · subst he
        refine h.queued f.executor o ?_
        rw [hqueue]
        exact List.mem_cons_of_mem _ (by simpa using ho)
      · exact h.queued e o (by simpa [Function.update_of_ne he] using ho)
    · refine List.forall_mem_cons.mpr ⟨fun o ho => ?_, hheld.2⟩
      simp only [Frame.operations, Phase.operation, hinfo, Option.toList_some, List.append_nil,
        List.mem_singleton] at ho
      rw [ho]
      exact htarget
    · exact List.forall_mem_cons.mpr ⟨trivial, hsettled.2⟩
    · exact List.forall_mem_cons.mpr ⟨htarget, h.executed⟩
    · by_cases he : f.executor = e
      · subst he
        simp [Thread.counted, Thread.outstanding, hstack, Frame.counted, Frame.outstanding, hqueue,
          Frame.operations, Phase.operation, hinfo, hphase]
        omega
      · simp [Thread.counted, Thread.outstanding, hstack, Frame.counted, Frame.outstanding, he,
          Function.update_of_ne (Ne.symm he)]
  · obtain ⟨-, hs'⟩ := Option.ite_none_right_eq_some.mp hs'
    obtain rfl := Option.some.inj hs'
    exact hleave

/-- `OnJobArrival()` of a post without a context counts the operation with its executor. -/
theorem Inv.announce (h : s.Inv) (hposting : (s.threads t).posting = none) (o : Operation E) :
    (s.announce t o).Inv := by
  refine h.update (t := t) rfl (fun e o' ho' => ?_) (h.held t) (h.settled t) h.executed fun e => ?_
  · by_cases he : e = o.target
    · subst he
      exact h.queued _ o' (by simpa [State.announce] using ho')
    · exact h.queued e o' (by simpa [State.announce, Function.update_of_ne he] using ho')
  · by_cases he : o.target = e
    · subst he
      simp [State.announce, Thread.counted, Thread.outstanding, hposting, fetchAdd]
      omega
    · simp [State.announce, Thread.counted, Thread.outstanding, hposting, he,
        Function.update_of_ne (Ne.symm he)]

/-- The critical section of a post without a context queues the operation with its executor. -/
theorem Inv.push (h : s.Inv) {o : Operation E} (hposting : (s.threads t).posting = some o) :
    (s.push t o).Inv := by
  refine h.update (t := t) rfl (fun e o' ho' => ?_) (h.held t) (h.settled t) h.executed fun e => ?_
  · by_cases he : e = o.target
    · subst he
      have hmem : o' ∈ (s.executors o.target).operationQueue ∨ o' = o := by
        simpa [State.push] using ho'
      rcases hmem with hmem | rfl
      · exact h.queued _ o' hmem
      · rfl
    · exact h.queued e o' (by simpa [State.push, Function.update_of_ne he] using ho')
  · by_cases he : o.target = e
    · subst he
      simp [State.push, Thread.counted, Thread.outstanding, hposting]
      omega
    · simp [State.push, Thread.counted, Thread.outstanding, hposting, he,
        Function.update_of_ne (Ne.symm he)]

omit [Fintype T] [DecidableEq T] [DecidableEq E] in
/-- In user code the innermost call is executing an operation. -/
theorem exists_running_of_isUserCode {f : Frame E} {rest : List (Frame E)}
    (huser : (s.threads t).isUserCode = true) (hstack : (s.threads t).stack = f :: rest) :
    ∃ operation, f.phase = .running operation := by
  rw [Thread.isUserCode, hstack] at huser
  cases hphase : f.phase <;> simp_all

/-- A post from inside a call of the same executor goes to the `ThreadInfo` of this call. -/
theorem Inv.enqueuePrivate (h : s.Inv) {o : Operation E} (huser : (s.threads t).isUserCode = true)
    (hcontext : ∀ f ∈ (s.threads t).stack.head?, f.executor = o.target)
    (hs' : s.enqueuePrivate t o = some s') : s'.Inv := by
  unfold State.enqueuePrivate at hs'
  split at hs'
  · cases hs'
  rename_i f rest hstack
  obtain rfl := Option.some.inj hs'
  have hheld := h.held t
  have hsettled := h.settled t
  rw [hstack, List.forall_mem_cons] at hheld hsettled
  -- here the condition on the context is used: the private queue is not checked for its executor
  have htarget : f.executor = o.target := hcontext f (by rw [hstack]; rfl)
  obtain ⟨operation, hphase⟩ := exists_running_of_isUserCode huser hstack
  refine h.update (t := t) rfl h.queued ?_ ?_ h.executed fun e => ?_
  · refine List.forall_mem_cons.mpr ⟨fun o' ho' => ?_, hheld.2⟩
    simp only [Frame.operations, ← List.append_assoc, List.mem_append, List.mem_singleton] at ho'
    rcases ho' with ho' | rfl
    · exact hheld.1 o' (List.mem_append.mpr ho')
    · exact htarget.symm
  · refine List.forall_mem_cons.mpr ⟨?_, hsettled.2⟩
    simp [Frame.Settled, hphase]
  · by_cases he : f.executor = e
    · subst he
      simp [Thread.counted, Thread.outstanding, hstack, Frame.counted, Frame.outstanding,
        Frame.operations, fetchAdd]
      omega
    · simp [Thread.counted, Thread.outstanding, hstack, Frame.counted, Frame.outstanding, he]

/-- The fold of the private counter counts the operations the call posted and the one it ends. -/
theorem Inv.account (h : s.Inv) {f : Frame E} {rest : List (Frame E)}
    (huser : (s.threads t).isUserCode = true) (hstack : (s.threads t).stack = f :: rest) :
    (s.account t f rest).Inv := by
  have hheld := h.held t
  have hsettled := h.settled t
  rw [hstack, List.forall_mem_cons] at hheld hsettled
  obtain ⟨operation, hphase⟩ := exists_running_of_isUserCode huser hstack
  -- the counter of the executor takes over the difference, and its queue is left alone
  have hqueue := (s.executors f.executor).fold_operationQueue f.info.privateJobCount
  have hcount := (s.executors f.executor).fold_jobCount f.info.privateJobCount
  refine h.update (t := t) rfl (fun e o ho => ?_) ?_ ?_ h.executed fun e => ?_
  · by_cases he : e = f.executor
    · subst he
      exact h.queued _ o (by simpa [State.account, hqueue] using ho)
    · exact h.queued e o (by simpa [State.account, Function.update_of_ne he] using ho)
  · refine List.forall_mem_cons.mpr ⟨fun o ho => ?_, hheld.2⟩
    exact hheld.1 o
      (List.mem_append_right _ (by simpa [Frame.operations, Phase.operation] using ho))
  · exact List.forall_mem_cons.mpr ⟨rfl, hsettled.2⟩
  · by_cases he : f.executor = e
    · subst he
      simp [State.account, Thread.counted, Thread.outstanding, hstack, Frame.counted,
        Frame.outstanding, Frame.operations, Phase.operation, hphase, hqueue]
      omega
    · simp [State.account, Thread.counted, Thread.outstanding, hstack, Frame.counted,
        Frame.outstanding, he, Function.update_of_ne (Ne.symm he)]

/-- The private queue of a call moves to the queue of its executor. -/
theorem Inv.relock (h : s.Inv) {f : Frame E} {rest : List (Frame E)}
    (hstack : (s.threads t).stack = f :: rest) (hphase : f.phase = .accounted) :
    (s.relock t f rest).Inv := by
  have hheld := h.held t
  have hsettled := h.settled t
  rw [hstack, List.forall_mem_cons] at hheld hsettled
  have hcount : f.info.privateJobCount = 0 := by simpa [Frame.Settled, hphase] using hsettled.1
  -- the state before `RunOne()` returns, too
  have hmoved : ((s.setMembers f.executor { s.executors f.executor with
      operationQueue := (s.executors f.executor).operationQueue ++
        f.info.privateOpQueue }).setThread
      t { s.threads t with
        stack := { f with
          phase := .processing
          info := { f.info with privateOpQueue := [] } } :: rest }).Inv := by
    refine h.update (t := t) rfl (fun e o ho => ?_) ?_ ?_ h.executed fun e => ?_
    · by_cases he : e = f.executor
      · subst he
        have hmem : o ∈ (s.executors f.executor).operationQueue ∨ o ∈ f.info.privateOpQueue := by
          simpa using ho
        rcases hmem with hmem | hmem
        · exact h.queued _ o hmem
        · exact hheld.1 o (List.mem_append_right _ hmem)
      · exact h.queued e o (by simpa [Function.update_of_ne he] using ho)
    · refine List.forall_mem_cons.mpr ⟨fun o ho => ?_, hheld.2⟩
      simp [Frame.operations, Phase.operation] at ho
    · refine List.forall_mem_cons.mpr ⟨?_, hsettled.2⟩
      simp [Frame.Settled, hcount]
    · by_cases he : f.executor = e
      · subst he
        simp [Thread.counted, Thread.outstanding, hstack, Frame.counted, Frame.outstanding,
          Frame.operations, Phase.operation, hphase]
        omega
      · simp [Thread.counted, Thread.outstanding, hstack, Frame.counted, Frame.outstanding, he,
          Function.update_of_ne (Ne.symm he)]
  simp only [State.relock]
  split
  · exact hmoved
  · have hleft := hmoved.leave (t := t) (f := { f with
      phase := .processing
      info := { f.info with privateOpQueue := [] } }) (show _ = _ :: rest by simp [setThread])
      hcount rfl
    simpa [State.leave, setThread, setMembers] using hleft

/-- `Post()` and `Dispatch()` are called without a context or with the one of their executor. -/
def OwnContext (s : State T E) : Action T E → Prop
  | .post t e _ | .dispatch t e _ =>
    (s.threads t).context = none ∨ (s.threads t).context = some e
  | _ => True

instance (s : State T E) : (a : Action T E) → Decidable (s.OwnContext a)
  | .post _ _ _ | .dispatch _ _ _ => inferInstanceAs (Decidable (_ ∨ _))
  | .enter _ _ _ | .processNext _ | .push _ | .account _ | .relock _ | .stop _ _ | .restart _ _ =>
    inferInstanceAs (Decidable True)

omit [Fintype T] [DecidableEq T] [DecidableEq E] in
/-- With a context that is not foreign, the innermost call is one of the executor. -/
theorem executor_eq_of_context {e : E} (hcontent : (s.threads t).hasContent = true)
    (hcontext : (s.threads t).context = none ∨ (s.threads t).context = some e) :
    ∀ f ∈ (s.threads t).stack.head?, f.executor = e := by
  intro f hf
  rw [Option.mem_def] at hf
  simpa [Thread.context, hcontent, hf] using hcontext

/-- Every step in which no post or dispatch has a foreign context keeps the invariant. -/
theorem Inv.step (h : s.Inv) {a : Action T E} (hC : s.OwnContext a) (hs' : s.step a = some s') :
    s'.Inv := by
  have hposting (t : T) (huser : (s.threads t).isUserCode = true) :
      (s.threads t).posting = none := by
    simp only [Thread.isUserCode, Bool.and_eq_true, Option.isNone_iff_eq_none] at huser
    exact huser.1
  cases a with
  | enter t e mode =>
    obtain ⟨-, hs'⟩ := Option.ite_none_right_eq_some.mp hs'
    obtain rfl := Option.some.inj hs'
    exact h.enter t e mode
  | processNext t =>
    simp only [State.step] at hs'
    split at hs'
    · rename_i hstack
      obtain ⟨hphase, hs'⟩ := Option.ite_none_right_eq_some.mp hs'
      exact h.processNext hstack hphase hs'
    · cases hs'
  | post t e op =>
    obtain ⟨huser, hs'⟩ := Option.ite_none_right_eq_some.mp hs'
    unfold State.post at hs'
    split at hs'
    · rename_i hcontent
      exact h.enqueuePrivate huser (executor_eq_of_context (e := e) hcontent hC) hs'
    · obtain rfl := Option.some.inj hs'
      exact h.announce (hposting t huser) _
  | dispatch t e op =>
    obtain ⟨huser, hs'⟩ := Option.ite_none_right_eq_some.mp hs'
    unfold State.dispatch at hs'
    split at hs'
    · rename_i hcontent
      split at hs'
      · cases hs'
      · -- inline, inside a call of the same executor
        rename_i f rest hstack
        obtain rfl := Option.some.inj hs'
        have htarget : f.executor = e :=
          executor_eq_of_context hcontent hC f (by rw [hstack]; rfl)
        refine ⟨⟨h.queued, h.held, ?_, h.counted⟩, h.settled⟩
        exact List.forall_mem_cons.mpr ⟨htarget.symm, h.executed⟩
    · obtain rfl := Option.some.inj hs'
      exact h.announce (hposting t huser) _
  | push t =>
    obtain ⟨o, hposting, rfl⟩ := Option.map_eq_some_iff.mp hs'
    exact h.push hposting
  | account t =>
    simp only [State.step] at hs'
    split at hs'
    · rename_i hstack
      obtain ⟨huser, hs'⟩ := Option.ite_none_right_eq_some.mp hs'
      obtain rfl := Option.some.inj hs'
      exact h.account huser hstack
    · cases hs'
  | relock t =>
    simp only [State.step] at hs'
    split at hs'
    · rename_i hstack
      obtain ⟨hphase, hs'⟩ := Option.ite_none_right_eq_some.mp hs'
      obtain rfl := Option.some.inj hs'
      exact h.relock hstack hphase
    · cases hs'
  | stop t e | restart t e =>
    obtain ⟨-, hs'⟩ := Option.ite_none_right_eq_some.mp hs'
    obtain rfl := Option.some.inj hs'
    exact h.setStop t e _

omit [DecidableEq T] in
/-- The invariant holds when nothing has been posted. -/
theorem Inv.init : ({} : State T E).Inv where
  queued _ _ h := by cases h
  held _ _ h := by cases h
  executed _ h := by cases h
  counted _ := by simp [State.counted, State.outstanding, Thread.counted, Thread.outstanding]
  settled _ _ h := by cases h

end State

open State in
/-- Executor isolation. Take any run of any executors, with any nesting of their `Run()` and
`RunOne()` calls, in which `Post()` and `Dispatch()` are called without a context or inside a call
of the executor they are made on. In every state reached the operations of each executor are queued
in it, held by its own calls, executed by them and counted in its own counters. -/
theorem isolation [Fintype T] [DecidableEq T] [DecidableEq E] {s : State T E}
    (hs : (machine T E).ReachableIn OwnContext s) : s.Isolated :=
  (hs.invariant (I := Inv) (fun _ h => h ▸ Inv.init) fun _ _ _ h hC hs' => h.step hC hs').toIsolated

open State in
/-- A job of executor `0` runs executor `1` and then posts to it, and again to its own executor: the
context of the outer call is gone, and both posts take the shared queues. -/
theorem isolation_nested_run :
    ∃ s : State (Fin 1) (Fin 2), (machine (Fin 1) (Fin 2)).ReachableIn OwnContext s ∧
      (s.executors 1).operationQueue = [⟨1, 8⟩] ∧ (s.executors 0).operationQueue = [⟨0, 9⟩] ∧
      (s.executors 1).jobCount = 1 ∧ s.Isolated := by
  have hs := ToMathlib.Machine.reachableIn_get_run (M := machine (Fin 1) (Fin 2))
    (C := OwnContext) (s := {})
    (l := [.post 0 0 5, .push 0, .post 0 1 6, .push 0, .enter 0 0 .run, .processNext 0,
      .enter 0 1 .runOne, .processNext 0, .account 0, .relock 0, .post 0 1 8, .push 0, .post 0 0 9,
      .push 0]) rfl (by decide)
  exact ⟨_, hs, by decide, by decide, by decide, isolation hs⟩

open State in
/-- A job of executor `0` posts to executor `1`. The operation goes to the private queue of the call
of executor `0`, and from there to its shared queue; executor `1` does not hear of it. -/
theorem isolation_foreign_context :
    ∃ s : State (Fin 1) (Fin 2), (machine (Fin 1) (Fin 2)).Reachable s ∧
      (s.executors 0).operationQueue = [⟨1, 6⟩] ∧ (s.executors 0).jobCount = 1 ∧
      (s.executors 1).jobCount = 0 ∧ ¬ s.Isolated := by
  have hs := ToMathlib.Machine.reachableIn_get_run (M := machine (Fin 1) (Fin 2))
    (C := ToMathlib.Machine.Always) (s := {})
    (l := [.post 0 0 5, .push 0, .enter 0 0 .run, .processNext 0, .post 0 1 6, .account 0,
      .relock 0]) rfl (by decide)
  refine ⟨_, hs, by decide, by decide, by decide, fun hisolated => ?_⟩
  exact absurd (hisolated.queued 0 ⟨1, 6⟩ (by decide)) (by decide)

end Asrt.Instances
