import Asrt.Strand.Runner

/-!
# Mutual exclusion of strand jobs

The token of a strand is never held twice (`Strand.Runner`). Jobs of a strand run above a frame of
`ExecutePendingJobs()` of the same strand, which holds the token, so two threads cannot run jobs of
one strand at a time.

The last step rests on `Dispatch()` running a job inline only above a frame of its own strand.
`IsContinuation()` does not establish that: it reads a marker that all strands of a thread share,
and so a job of one strand that dispatches into another strand runs the job inline, without its
token. `mutual_exclusion` is therefore about runs without such a call, and
`mutual_exclusion_foreign_dispatch` is a run with one.
-/

namespace Asrt.Strand

open ToMathlib (add_le_sum)

variable {T S J : Type}

/-- The strand a frame executes a job of. -/
def Frame.jobOf : Frame S J → Option S
  | .job s _ => some s
  | _ => none

/-- The thread is executing a job of the strand. -/
def Thread.Executes (th : Thread S J) (s : S) : Prop := ∃ j, Frame.job s j ∈ th.stack

/-- The strand whose `ExecutePendingJobs()` is on the stack. -/
def owner : List (Frame S J) → Option S
  | [] => none
  | .draining s :: _ => some s
  | _ :: rest => owner rest

/-- A stack as the code builds it: plain jobs at the bottom, jobs of a strand above the loop of that
strand, and one such loop. -/
def WellFormed : List (Frame S J) → Prop
  | [] => True
  | .plain _ :: rest => rest = []
  | .job s _ :: rest => WellFormed rest ∧ owner rest = some s
  | .draining _ :: rest => WellFormed rest ∧ owner rest = none
  | .posting _ :: rest => WellFormed rest

/-- In a well-formed stack every job belongs to the strand of the loop below it. -/
theorem WellFormed.owner_eq {stack : List (Frame S J)} (h : WellFormed stack) {s : S} {j : J}
    (hj : Frame.job s j ∈ stack) : owner stack = some s := by
  induction stack with
  | nil => cases hj
  | cons f rest ih =>
    rcases List.mem_cons.mp hj with rfl | hrest
    · exact h.2
    cases f with
    | plain _ =>
      obtain rfl : rest = [] := h
      cases hrest
    | job s' _ => exact ih h.1 hrest
    -- a loop is not below another one, so there is no job below it
    | draining s' =>
      have hnone : owner rest = none := h.2
      rw [ih h.1 hrest] at hnone
      cases hnone
    | posting s' => exact ih h hrest

section Tokens

variable [DecidableEq S]

/-- A loop on the stack is a token. -/
theorem tokens_pos_of_owner {s : S} {th : Thread S J} (h : owner th.stack = some s) :
    0 < th.tokens s := by
  refine Nat.add_pos_left (List.countP_pos_iff.mpr ?_) _
  generalize th.stack = stack at h
  induction stack with
  | nil => cases h
  | cons f rest ih =>
    cases f with
    | draining s' => exact ⟨_, List.mem_cons_self, by simpa [owner, Frame.token] using h⟩
    | plain _ | job _ _ | posting _ =>
      obtain ⟨f, hf, htok⟩ := ih h
      exact ⟨f, List.mem_cons_of_mem _ hf, htok⟩

end Tokens

namespace State

variable [Fintype T] [DecidableEq T] [DecidableEq S]

/-- The invariant of the strands and the threads. -/
structure Inv (σ : State T S J) : Prop where
  /-- `is_running_` counts the tokens of the strand. -/
  tokens : ∀ s, σ.tokens s = (σ.strands s).isRunning.toNat
  /-- Every stack is well formed. -/
  wellFormed : ∀ t, WellFormed (σ.threads t).stack
  /-- The marker is set exactly above a loop. -/
  marker : ∀ t, (σ.threads t).contextMarker = (owner (σ.threads t).stack).isSome

/-- `Dispatch()` is not called from inside a job of another strand. -/
def NoForeignDispatch (σ : State T S J) : Action T S J → Prop
  | .dispatch t s _ => ∀ f ∈ (σ.threads t).stack, f.jobOf = none ∨ f.jobOf = some s
  | _ => True

instance (σ : State T S J) : (a : Action T S J) → Decidable (σ.NoForeignDispatch a)
  | .dispatch _ _ _ => inferInstanceAs (Decidable (∀ _ ∈ _, _))
  | .enterRun _ | .leaveRun _ | .take _ | .postPlain _ _ | .post _ _ _ | .postRunner _ | .next _ |
    .finish _ => inferInstanceAs (Decidable True)

variable {σ σ' : State T S J} {t : T} {th : Thread S J} {s : S} {j : J}

/-- The part of the invariant about the call stacks. -/
structure Stacks (σ : State T S J) : Prop where
  wellFormed : ∀ t, WellFormed (σ.threads t).stack
  marker : ∀ t, (σ.threads t).contextMarker = (owner (σ.threads t).stack).isSome

omit [Fintype T] [DecidableEq S] in
/-- A step that replaces thread `t` by one whose stack and marker are in order. -/
theorem Stacks.update (h : σ.Stacks) (hthreads : σ'.threads = Function.update σ.threads t th)
    (hwf : WellFormed th.stack) (hmarker : th.contextMarker = (owner th.stack).isSome) :
    σ'.Stacks := by
  refine ⟨fun u => ?_, fun u => ?_⟩
  all_goals
    rw [hthreads]
    by_cases hu : u = t
    · subst hu
      simpa using by assumption
    · rw [Function.update_of_ne hu]
      first | exact h.wellFormed u | exact h.marker u

/-! ## The steps -/

omit [Fintype T] [DecidableEq S] in
/-- A worker calls an operation on an empty stack. -/
theorem Stacks.take (h : σ.Stacks) (hstack : (σ.threads t).stack = [])
    (hσ' : σ.take t = some σ') : σ'.Stacks := by
  have hmarker := h.marker t
  rw [hstack] at hmarker
  simp only [State.take] at hσ'
  split at hσ'
  · cases hσ'
  · obtain rfl := Option.some.inj hσ'
    exact h.update (t := t) rfl rfl hmarker
  · obtain rfl := Option.some.inj hσ'
    exact h.update (t := t) rfl ⟨trivial, rfl⟩ rfl

omit [Fintype T] [DecidableEq S] in
/-- `executor.Post()` leaves the stacks alone. -/
theorem Stacks.executorPost (h : σ.Stacks) (t : T) (op : Operation S J) :
    (σ.executorPost t op).Stacks := by
  simp only [State.executorPost]
  split
  · exact h.update (t := t) rfl (h.wellFormed t) (h.marker t)
  · exact ⟨h.wellFormed, h.marker⟩

omit [Fintype T] in
/-- `Post()` is a frame above any stack. -/
theorem Stacks.post (h : σ.Stacks) (t : T) (s : S) (j : J) : (σ.post t s j).Stacks := by
  simp only [State.post]
  split
  · exact h.update (t := t) rfl (h.wellFormed t) (h.marker t)
  · exact ⟨h.wellFormed, h.marker⟩

omit [Fintype T] [DecidableEq S] in
/-- A frame returns to a stack that is in order with the marker. -/
theorem Stacks.popFrame (h : σ.Stacks) {σ₁ : State T S J} {rest : List (Frame S J)}
    (hthreads : σ₁.threads = σ.threads) (hwf : WellFormed rest)
    (hmarker : th.contextMarker = (owner rest).isSome) : (σ₁.popFrame t th rest).Stacks := by
  simp only [State.popFrame, setThread, hthreads]
  split <;> exact h.update (t := t) rfl hwf hmarker

omit [Fintype T] [DecidableEq S] in
/-- A job returns. -/
theorem Stacks.finish (h : σ.Stacks) {f : Frame S J} {rest : List (Frame S J)}
    (hstack : (σ.threads t).stack = f :: rest) (hwf : WellFormed rest)
    (howner : owner rest = owner (f :: rest)) : (σ.popFrame t (σ.threads t) rest).Stacks := by
  have hmarker := h.marker t
  rw [hstack, ← howner] at hmarker
  exact h.popFrame rfl hwf hmarker

omit [Fintype T] [DecidableEq T] [DecidableEq S] in
/-- In user code that is above a loop, the innermost frame is a job of the loop's strand. -/
theorem Stacks.exists_job_of_marker (h : σ.Stacks) (huser : (σ.threads t).isUserCode = true)
    (hmarker : (σ.threads t).contextMarker = true) :
    ∃ s j, Frame.job s j ∈ (σ.threads t).stack ∧ owner (σ.threads t).stack = some s := by
  have hwf := h.wellFormed t
  rw [h.marker t] at hmarker
  unfold Thread.isUserCode at huser
  split at huser
  -- outside of the executor and in a plain job there is no loop on the stack
  · rename_i hnil
    rw [hnil] at hmarker
    cases hmarker
  · rename_i hplain
    rw [hplain] at hwf hmarker
    obtain rfl := hwf
    cases hmarker
  · rename_i s j rest hjob
    rw [hjob] at hwf ⊢
    exact ⟨s, j, List.mem_cons_self, hwf.2⟩
  · cases huser

omit [Fintype T] in
/-- `Dispatch()` keeps the stacks in order if it is not called from inside a job of another
strand. -/
theorem Stacks.dispatch (h : σ.Stacks) (huser : (σ.threads t).isUserCode = true)
    (hC : σ.NoForeignDispatch (.dispatch t s j)) : (σ.dispatch t s j).Stacks := by
  have hwf := h.wellFormed t
  have hm := h.marker t
  simp only [State.dispatch]
  split
  -- outside of `Run()` it is a `Post()`
  · exact h.post t s j
  split
  · rename_i hmarker
    obtain ⟨s', j', hjob, howner⟩ := h.exists_job_of_marker huser hmarker
    -- the innermost job is one of the dispatching strand, so its loop is below
    obtain rfl : s' = s := by simpa [Frame.jobOf] using hC _ hjob
    exact h.update (t := t) rfl ⟨hwf, howner⟩ hm
  rename_i hmarker
  have hnone : owner (σ.threads t).stack = none := by
    rw [hm] at hmarker
    simpa using hmarker
  split
  · exact h.update (t := t) rfl ⟨⟨hwf, hnone⟩, rfl⟩ rfl
  · exact ⟨h.wellFormed, h.marker⟩

omit [Fintype T] in
/-- The loop of `ExecutePendingJobs()` runs the next job above itself, or returns. -/
theorem Stacks.next (h : σ.Stacks) {rest : List (Frame S J)}
    (hstack : (σ.threads t).stack = .draining s :: rest) : (σ.next t s rest).Stacks := by
  have hwf := h.wellFormed t
  have hm := h.marker t
  rw [hstack] at hwf hm
  simp only [State.next]
  split
  · exact h.update (t := t) rfl ⟨hwf, rfl⟩ hm
  · refine h.popFrame rfl hwf.1 ?_
    rw [hwf.2]
    rfl

omit [Fintype T] in
/-- Every step that is not a dispatch from inside a job of another strand keeps the stacks in
order. -/
theorem Stacks.step (h : σ.Stacks) {a : Action T S J} (hC : σ.NoForeignDispatch a)
    (hσ' : σ.step a = some σ') : σ'.Stacks := by
  cases a with
  | enterRun t | leaveRun t =>
    obtain ⟨-, hσ'⟩ := Option.ite_none_right_eq_some.mp hσ'
    obtain rfl := Option.some.inj hσ'
    exact h.update (t := t) rfl (h.wellFormed t) (h.marker t)
  | take t =>
    obtain ⟨hstack, hσ'⟩ := Option.ite_none_right_eq_some.mp hσ'
    exact h.take hstack.1 hσ'
  | postPlain t j =>
    obtain ⟨-, hσ'⟩ := Option.ite_none_right_eq_some.mp hσ'
    obtain rfl := Option.some.inj hσ'
    exact h.executorPost t _
  | post t s j =>
    obtain ⟨-, hσ'⟩ := Option.ite_none_right_eq_some.mp hσ'
    obtain rfl := Option.some.inj hσ'
    exact h.post t s j
  | postRunner t =>
    simp only [State.step] at hσ'
    split at hσ'
    · rename_i s rest hstack
      obtain rfl := Option.some.inj hσ'
      have hwf := h.wellFormed t
      have hm := h.marker t
      rw [hstack] at hwf hm
      -- the runner leaves the stack before it is posted again
      have hpop : (σ.setThread t { σ.threads t with stack := rest }).Stacks :=
        h.update (t := t) rfl hwf hm
      exact hpop.executorPost t _
    · cases hσ'
  | dispatch t s j =>
    obtain ⟨huser, hσ'⟩ := Option.ite_none_right_eq_some.mp hσ'
    obtain rfl := Option.some.inj hσ'
    exact h.dispatch huser hC
  | next t =>
    simp only [State.step] at hσ'
    split at hσ'
    · rename_i hstack
      obtain rfl := Option.some.inj hσ'
      exact h.next hstack
    · cases hσ'
  | finish t =>
    have hwf := h.wellFormed t
    simp only [State.step] at hσ'
    split at hσ'
    · rename_i hstack
      rw [hstack] at hwf
      obtain rfl := Option.some.inj hσ'
      exact h.finish hstack hwf.1 rfl
    · rename_i hstack
      rw [hstack] at hwf
      obtain rfl := Option.some.inj hσ'
      -- a job that belongs to no strand is at the bottom of its stack
      obtain rfl := hwf
      exact h.finish hstack trivial rfl
    · cases hσ'

/-- The invariant holds in every state reached without a dispatch from inside a job of another
strand. -/
theorem Inv.of_reachable (hσ : (machine T S J).ReachableIn NoForeignDispatch σ) : σ.Inv := by
  have hruns : σ.Runs := Runs.of_reachable (hσ.mono fun _ _ _ => trivial)
  have hstacks : σ.Stacks :=
    hσ.invariant (fun _ h => h ▸ ⟨fun _ => trivial, fun _ => rfl⟩) fun _ _ _ h hC hσ' =>
      h.step hC hσ'
  exact ⟨hruns.tokens, hstacks.wellFormed, hstacks.marker⟩

/-- Two threads cannot both have the loop of one strand on their stacks. -/
theorem Inv.owner_unique (h : σ.Inv) {t u : T} (ht : owner (σ.threads t).stack = some s)
    (hu : owner (σ.threads u).stack = some s) : t = u := by
  by_contra hne
  -- two loops would be two tokens, but `is_running_` is one flag
  have hboth := add_le_sum (Thread.tokens s) σ.threads hne
  have htpos := tokens_pos_of_owner ht
  have hupos := tokens_pos_of_owner hu
  have htok := h.tokens s
  have hone := Bool.toNat_le (σ.strands s).isRunning
  simp only [State.tokens] at htok
  omega

end State

open State in
/-- Mutual exclusion. In every run in which no job of a strand dispatches into another strand, no
two threads are executing jobs of one strand. -/
theorem mutual_exclusion [Fintype T] [DecidableEq T] [DecidableEq S] {σ : State T S J}
    (hσ : (machine T S J).ReachableIn NoForeignDispatch σ) {s : S} {t u : T} (htu : t ≠ u) :
    ¬ ((σ.threads t).Executes s ∧ (σ.threads u).Executes s) := by
  rintro ⟨⟨j, hj⟩, ⟨k, hk⟩⟩
  have h := Inv.of_reachable hσ
  exact htu (h.owner_unique ((h.wellFormed t).owner_eq hj) ((h.wellFormed u).owner_eq hk))

open State in
/-- Two workers and one strand: while a job of the strand runs on the first worker, a job that the
second worker dispatches is queued, and the second worker does not execute the strand. -/
theorem mutual_exclusion_second_worker :
    ∃ σ : State (Fin 2) (Fin 1) ℕ, (machine (Fin 2) (Fin 1) ℕ).ReachableIn NoForeignDispatch σ ∧
      (σ.threads 0).stack = [.job 0 1, .draining 0] ∧ (σ.strands 0).jobs = [2] ∧
      ¬ ((σ.threads 0).Executes 0 ∧ (σ.threads 1).Executes 0) := by
  have hσ := ToMathlib.Machine.reachableIn_get_run (M := machine (Fin 2) (Fin 1) ℕ)
    (C := NoForeignDispatch) (s := {})
    (l := [.postPlain 0 0, .post 0 0 1, .postRunner 0, .enterRun 1, .take 1, .enterRun 0, .take 0,
      .next 0, .dispatch 1 0 2]) rfl (by decide)
  exact ⟨_, hσ, by decide, by decide, mutual_exclusion hσ (by decide)⟩

open State in
/-- A job of strand `0` runs on the first worker, a job of strand `1` on the second. The second one
dispatches into strand `0`; the marker is set, so its job runs inline, and both workers execute
strand `0`. -/
theorem mutual_exclusion_foreign_dispatch :
    ∃ σ : State (Fin 2) (Fin 2) ℕ, (machine (Fin 2) (Fin 2) ℕ).Reachable σ ∧
      (σ.threads 0).Executes 0 ∧ (σ.threads 1).Executes 0 := by
  have hσ := ToMathlib.Machine.reachableIn_get_run (M := machine (Fin 2) (Fin 2) ℕ)
    (C := ToMathlib.Machine.Always) (s := {})
    (l := [.post 0 0 1, .postRunner 0, .post 0 1 2, .postRunner 0, .enterRun 0, .take 0, .next 0,
      .enterRun 1, .take 1, .next 1, .dispatch 1 0 3]) rfl (by decide)
  exact ⟨_, hσ, ⟨1, by decide⟩, ⟨3, by decide⟩⟩

end Asrt.Strand
