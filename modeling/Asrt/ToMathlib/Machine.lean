import Mathlib.Data.Nat.Init
import Mathlib.Logic.Relation

/-!
# Labelled machines and guarded runs

A machine has a set of initial states and a partial step function that reads a label. All
nondeterminism (the scheduler, the kernel, the client program) is carried by the labels, so a run
is a list of labels and is executable.

`M.ReachableIn C` is reachability by steps that all meet a guard `C`, a condition on the state
before the step and on the label; `M.Reachable` is the unguarded case. The module provides the
invariant rules for guarded reachability and for runs, `reachableIn_get_run`, which turns a computed
run into a reachable state, and `exists_run_of_work`, which finds a run to a goal. `M.Leads C` is
reachability from a state. `M.Along P` is
the property of a run that each of its steps satisfies `P`, a condition on the states before and
after the step and on the label. `run_trace` is the rule for a machine that refines another one, and
`notMem_trace` the one for what a run does not show.
`M.beside N` is two machines side by side.

A `Responder` also gives an output for each label. `Responder.outputs_eq_of_simulation` is the rule
for two states that cannot be told apart.
-/

namespace ToMathlib

/-- A machine over states `σ` and labels `α`: initial states and a partial step function. -/
structure Machine (σ α : Type*) where
  /-- The states a run may start in. -/
  init : σ → Prop
  /-- The state after the step labelled `a`, or `none` if the step is not enabled. -/
  step : σ → α → Option σ

namespace Machine

variable {σ α : Type*} {M : Machine σ α} {C D : σ → α → Prop}

/-- Execute the steps labelled by a list, from left to right. The run stops with `none` at the first
step that is not enabled or does not meet the guard. -/
def run (M : Machine σ α) (C : σ → α → Prop) [∀ s a, Decidable (C s a)] : σ → List α → Option σ
  | s, [] => some s
  | s, a :: as => if C s a then (M.step s a).bind fun t => M.run C t as else none

/-- States reachable from an initial state by steps that all meet the guard `C`. -/
inductive ReachableIn (M : Machine σ α) (C : σ → α → Prop) : σ → Prop
  | init {s : σ} : M.init s → ReachableIn M C s
  | step {s t : σ} {a : α} : ReachableIn M C s → C s a → M.step s a = some t → ReachableIn M C t

/-- The guard that every step meets. -/
abbrev Always : σ → α → Prop := fun _ _ => True

/-- States reachable by any steps. -/
abbrev Reachable (M : Machine σ α) : σ → Prop := M.ReachableIn Always

/-- The machine can go from one state to another by steps that all meet the guard `C`. -/
def Leads (M : Machine σ α) (C : σ → α → Prop) : σ → σ → Prop :=
  Relation.ReflTransGen fun s t => ∃ a, C s a ∧ M.step s a = some t

/-- One step. -/
theorem Leads.of_step {s t : σ} {a : α} (hC : C s a) (ht : M.step s a = some t) : M.Leads C s t :=
  .single ⟨a, hC, ht⟩

/-- One run after another. -/
theorem Leads.trans {s t u : σ} (h : M.Leads C s t) (h' : M.Leads C t u) : M.Leads C s u :=
  Relation.ReflTransGen.trans h h'

/-- A predicate that holds initially and is kept by every step that meets the guard holds in every
state reachable by such steps. -/
theorem ReachableIn.invariant {I : σ → Prop} {s : σ} (hs : M.ReachableIn C s)
    (hinit : ∀ s, M.init s → I s)
    (hstep : ∀ s a t, I s → C s a → M.step s a = some t → I t) : I s := by
  induction hs with
  | init h => exact hinit _ h
  | step _ hC ht ih => exact hstep _ _ _ ih hC ht

/-- Every step of the run from `s` labelled by a list satisfies `P`. -/
def Along (M : Machine σ α) (P : σ → α → σ → Prop) : σ → List α → Prop
  | _, [] => True
  | s, a :: as => ∀ t, M.step s a = some t → P s a t ∧ M.Along P t as

/-- A weaker guard reaches at least the same states. -/
theorem ReachableIn.mono {s : σ} (hs : M.ReachableIn C s) (hCD : ∀ s a, C s a → D s a) :
    M.ReachableIn D s := by
  induction hs with
  | init h => exact .init h
  | step _ hC ht ih => exact .step ih (hCD _ _ hC) ht

/-- Let an invariant make two step properties equivalent, and let the first of them keep it. Then
they agree on every run from a state with the invariant. -/
theorem along_iff_of_invariant {P Q : σ → α → σ → Prop} {I : σ → Prop} {s : σ} {as : List α}
    (hs : I s)
    (hPQ : ∀ s a t, I s → M.step s a = some t → (P s a t ↔ Q s a t))
    (hI : ∀ s a t, I s → M.step s a = some t → P s a t → I t) :
    M.Along P s as ↔ M.Along Q s as := by
  induction as generalizing s with
  | nil => exact Iff.rfl
  | cons a as ih =>
    refine forall_congr' fun t => ?_
    refine imp_congr_right fun ht => ?_
    have hiff := hPQ s a t hs ht
    constructor
    · rintro ⟨hP, hrest⟩
      exact ⟨hiff.mp hP, (ih (hI s a t hs ht hP)).mp hrest⟩
    · rintro ⟨hQ, hrest⟩
      have hP := hiff.mpr hQ
      exact ⟨hP, (ih (hI s a t hs ht hP)).mpr hrest⟩

section Run

variable [∀ s a, Decidable (C s a)]

/-- A predicate that is kept by the steps with the labels of a run holds at its end if it holds at
its start. -/
theorem run_invariant {I : σ → Prop} {s t : σ} {as : List α} (hs : I s)
    (ht : M.run C s as = some t)
    (hstep : ∀ s a t, a ∈ as → I s → C s a → M.step s a = some t → I t) : I t := by
  induction as generalizing s with
  | nil =>
    obtain rfl : s = t := by simpa [Machine.run] using ht
    exact hs
  | cons a as ih =>
    simp only [Machine.run] at ht
    split at ht
    · rename_i hC
      obtain ⟨u, hu, hut⟩ := Option.bind_eq_some_iff.mp ht
      refine ih (hstep s a u List.mem_cons_self hs hC hu) hut ?_
      intro s b t hb
      exact hstep s b t (List.mem_cons_of_mem a hb)
    · cases ht

/-- Whatever a run computes from a reachable state is reachable. -/
theorem ReachableIn.run {s t : σ} {as : List α} (hs : M.ReachableIn C s)
    (ht : M.run C s as = some t) : M.ReachableIn C t :=
  run_invariant hs ht fun _ _ _ _ hs hC ht => .step hs hC ht

/-- The end of a run computed from an initial state is reachable. -/
theorem reachableIn_get_run {s : σ} {l : List α} (hs : M.init s)
    (h : (M.run C s l).isSome) : M.ReachableIn C ((M.run C s l).get h) :=
  ReachableIn.run (.init hs) (Option.some_get h).symm

/-- If there is a step that reduces the work as long as the goal is not reached, there is a run to
the goal. The invariant holds at its end and all its labels are of the given kind. -/
theorem exists_run_of_work {I D : σ → Prop} {J : α → Prop} (work : σ → ℕ)
    (hstep : ∀ s, I s → ¬ D s →
      ∃ a t, M.step s a = some t ∧ C s a ∧ J a ∧ I t ∧ work t < work s) {s : σ} (hs : I s) :
    ∃ as t, (∀ a ∈ as, J a) ∧ M.run C s as = some t ∧ I t ∧ D t := by
  -- the run is built from its first step, by induction on the work that is left
  induction hwork : work s using Nat.strong_induction_on generalizing s with
  | _ n ih =>
    by_cases hdone : D s
    · exact ⟨[], s, by simp, rfl, hs, hdone⟩
    · obtain ⟨a, t, ht, hC, ha, hI, hless⟩ := hstep s hs hdone
      obtain ⟨as, u, has, hrun, hu, hdone'⟩ := ih (work t) (hwork ▸ hless) hI rfl
      refine ⟨a :: as, u, ?_, ?_, hu, hdone'⟩
      · intro b hb
        rcases List.mem_cons.mp hb with rfl | hb
        · exact ha
        · exact has b hb
      · rw [Machine.run, if_pos hC, ht, Option.bind_some, hrun]

variable {P Q : σ → α → σ → Prop}

/-- What holds of every step from a reachable state holds along every run of reachable states. -/
theorem along_of_step {s : σ} {as : List α} (hs : M.ReachableIn C s)
    (hrun : (M.run C s as).isSome)
    (hP : ∀ s a t, M.ReachableIn C s → C s a → M.step s a = some t → P s a t) :
    M.Along P s as := by
  induction as generalizing s with
  | nil => trivial
  | cons a as ih =>
    simp only [Machine.run] at hrun
    split at hrun
    · rename_i hC
      intro t ht
      rw [ht, Option.bind_some] at hrun
      exact ⟨hP s a t hs hC ht, ih (.step hs hC ht) hrun⟩
    · cases hrun

/-- Two step properties that agree on the steps from reachable states agree on every run. -/
theorem along_iff_of_step {s : σ} {as : List α} (hs : M.ReachableIn C s)
    (hrun : (M.run C s as).isSome)
    (hPQ : ∀ s a t, M.ReachableIn C s → C s a → M.step s a = some t → (P s a t ↔ Q s a t)) :
    M.Along P s as ↔ M.Along Q s as := by
  induction as generalizing s with
  | nil => exact Iff.rfl
  | cons a as ih =>
    simp only [Machine.run] at hrun
    split at hrun
    · rename_i hC
      refine forall_congr' fun t => ?_
      refine imp_congr_right fun ht => ?_
      rw [ht, Option.bind_some] at hrun
      exact and_congr (hPQ s a t hs hC ht) (ih (.step hs hC ht) hrun)
    · cases hrun

end Run

section Refinement

variable {τ β : Type*} {N : Machine τ β} {E : τ → β → Prop} [∀ s b, Decidable (E s b)]

/-- A run of two parts. -/
theorem run_append {s : τ} (bs cs : List β) :
    N.run E s (bs ++ cs) = (N.run E s bs).bind fun t => N.run E t cs := by
  induction bs generalizing s with
  | nil => rfl
  | cons b bs ih =>
    simp only [List.cons_append, run]
    split
    · simp only [ih, Option.bind_assoc]
    · rfl

/-- A run of one step. -/
theorem run_singleton (s : τ) (b : β) : N.run Always s [b] = N.step s b := by
  simp [run]

/-- What the steps of a run show, as far as they show anything. -/
def trace (M : Machine σ α) (shows : σ → α → Option β) : σ → List α → List β
  | _, [] => []
  | s, a :: as =>
    match M.step s a with
    | some t => (shows s a).toList ++ M.trace shows t as
    | none => []

/-- Let steps with labels in `P` keep an invariant and not show `b` from where it holds. Then a run
of such steps does not show `b`. -/
theorem notMem_trace {shows : σ → α → Option β} {I : σ → Prop} {P : α → Prop} {b : β}
    (h : ∀ s a t, I s → P a → M.step s a = some t → I t ∧ shows s a ≠ some b) {s : σ} {as : List α}
    (hs : I s) (has : ∀ a ∈ as, P a) : b ∉ M.trace shows s as := by
  induction as generalizing s with
  | nil => simp [trace]
  | cons a as ih =>
    obtain ⟨ha, has⟩ := List.forall_mem_cons.mp has
    rw [trace]
    split
    · rename_i t ht
      obtain ⟨hkept, hshows⟩ := h s a t hs ha ht
      exact List.not_mem_append (by simpa using hshows) (ih hkept has)
    · simp

variable [∀ s a, Decidable (C s a)]

/-- Let a map from the states of one machine to those of another turn every step into the step that
it shows, if it shows one, and leave the state as it is otherwise. Then the trace of a run is a run
of the other machine. -/
theorem run_trace {f : σ → τ} {shows : σ → α → Option β} {I : σ → Prop}
    (hstep : ∀ s a t, I s → C s a → M.step s a = some t →
      I t ∧ N.run E (f s) (shows s a).toList = some (f t))
    {s t : σ} {as : List α} (hs : I s) (hrun : M.run C s as = some t) :
    N.run E (f s) (M.trace shows s as) = some (f t) := by
  induction as generalizing s with
  | nil =>
    obtain rfl : s = t := by simpa [run] using hrun
    rfl
  | cons a as ih =>
    simp only [run] at hrun
    split at hrun
    · rename_i hC
      obtain ⟨u, hu, hut⟩ := Option.bind_eq_some_iff.mp hrun
      obtain ⟨hIu, hshown⟩ := hstep s a u hs hC hu
      rw [trace, hu, run_append, hshown, Option.bind_some]
      exact ih hIu hut
    · cases hrun

end Refinement

section Beside

variable {τ β : Type*} {N : Machine τ β} {E : σ × τ → α ⊕ β → Prop} {s s' : σ × τ}

/-- Two machines side by side. Every step is a step of one of them; a guard on the pair of states
says how they depend on each other. -/
def beside (M : Machine σ α) (N : Machine τ β) : Machine (σ × τ) (α ⊕ β) where
  init s := M.init s.1 ∧ N.init s.2
  step s
    | .inl a => (M.step s.1 a).map fun t => (t, s.2)
    | .inr b => (N.step s.2 b).map fun t => (s.1, t)

/-- A step of two machines is a step of one of them, and leaves the other as it is. -/
theorem beside_cases {l : α ⊕ β} (h : (M.beside N).step s l = some s') :
    (∃ a, l = .inl a ∧ M.step s.1 a = some s'.1 ∧ s'.2 = s.2) ∨
      ∃ b, l = .inr b ∧ N.step s.2 b = some s'.2 ∧ s'.1 = s.1 := by
  cases l with
  | inl a =>
    obtain ⟨t, ht, rfl⟩ := Option.map_eq_some_iff.mp h
    exact .inl ⟨a, rfl, ht, rfl⟩
  | inr b =>
    obtain ⟨t, ht, rfl⟩ := Option.map_eq_some_iff.mp h
    exact .inr ⟨b, rfl, ht, rfl⟩

/-- Whatever the guard, the first machine is in a state that it reaches by itself. -/
theorem ReachableIn.left (hs : (M.beside N).ReachableIn E s) : M.Reachable s.1 := by
  refine hs.invariant (I := fun s => M.Reachable s.1) (fun s h => .init h.1) ?_
  intro s l s' h _ hstep
  rcases beside_cases hstep with ⟨a, -, hleft, -⟩ | ⟨b, -, -, hleft⟩
  · exact .step h trivial hleft
  · exact hleft ▸ h

/-- Whatever the guard, the second machine is in a state that it reaches by itself. -/
theorem ReachableIn.right (hs : (M.beside N).ReachableIn E s) : N.Reachable s.2 := by
  refine hs.invariant (I := fun s => N.Reachable s.2) (fun s h => .init h.2) ?_
  intro s l s' h _ hstep
  rcases beside_cases hstep with ⟨a, -, -, hright⟩ | ⟨b, -, hright, -⟩
  · exact hright ▸ h
  · exact .step h trivial hright

end Beside

end Machine

/-- A partial step function over states `σ` and labels `α` with outputs `β`. -/
def Responder (σ α β : Type*) := σ → α → Option (σ × β)

namespace Responder

variable {σ α β : Type*}

/-- The outputs of a run, or `none` if one of its steps is not enabled. -/
def outputs (M : Responder σ α β) : σ → List α → Option (List β)
  | _, [] => some []
  | s, a :: as => (M s a).bind fun t => (outputs M t.1 as).map (t.2 :: ·)

/-- If related states enable the same labels with the same outputs and are related again afterwards,
they have the same outputs in every run. -/
theorem outputs_eq_of_simulation {M : Responder σ α β} {R : σ → σ → Prop}
    (hstep : ∀ s t a, R s t → (M s a = none ∧ M t a = none) ∨
      ∃ s' t' b, M s a = some (s', b) ∧ M t a = some (t', b) ∧ R s' t')
    {s t : σ} (h : R s t) (as : List α) : outputs M s as = outputs M t as := by
  induction as generalizing s t with
  | nil => rfl
  | cons a as ih =>
    rcases hstep s t a h with ⟨hs, ht⟩ | ⟨s', t', b, hs, ht, h'⟩
    · simp [outputs, hs, ht]
    · simp [outputs, hs, ht, ih h']

end Responder

end ToMathlib
