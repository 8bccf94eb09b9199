import Mathlib.Algebra.Order.BigOperators.Group.Finset
import Mathlib.Data.Fintype.BigOperators

/-!
# Sums over a family with one member replaced

A system of finitely many components `g : ι → β` changes one component per step. A quantity that
is summed over the components then changes by what that component contributes, which is the only
fact about such sums the accounting arguments need. It is stated with the old contribution moved to
the other side, so that it needs no subtraction.
-/

namespace ToMathlib

variable {ι β : Type*} [DecidableEq ι]

/-- Replacing component `i` of the components summed by `x` replaces its contribution `f (g i)` by
`f x`. -/
theorem sum_update_add_of_mem (f : β → ℕ) (g : ι → β) {s : Finset ι} {i : ι} (hi : i ∈ s) (x : β) :
    (∑ j ∈ s, f (Function.update g i x j)) + f (g i) = (∑ j ∈ s, f (g j)) + f x := by
  have hupd : (fun j => f (Function.update g i x j)) =
      Function.update (fun j => f (g j)) i (f x) := by
    funext j
    by_cases hj : j = i
    · subst hj; simp
    · simp [Function.update_of_ne hj]
  rw [hupd, Finset.sum_update_of_mem hi, ← Finset.add_sum_erase s (fun j => f (g j)) hi,
    Finset.sdiff_singleton_eq_erase]
  omega

variable [Fintype ι]

/-- Replacing component `i` by `x` replaces its contribution `f (g i)` by `f x`. -/
theorem sum_update_add (f : β → ℕ) (g : ι → β) (i : ι) (x : β) :
    (∑ j, f (Function.update g i x j)) + f (g i) = (∑ j, f (g j)) + f x :=
  sum_update_add_of_mem f g (Finset.mem_univ i) x

/-- If all components but `i` contribute at most as much as before, the sums differ at most by what
`i` contributes. -/
theorem sum_add_le_of_ne {f g : ι → ℕ} {i : ι} (h : ∀ j, j ≠ i → f j ≤ g j) :
    (∑ j, f j) + g i ≤ (∑ j, g j) + f i := by
  have hrest : ∑ j ∈ Finset.univ.erase i, f j ≤ ∑ j ∈ Finset.univ.erase i, g j :=
    Finset.sum_le_sum fun j hj => h j (Finset.ne_of_mem_erase hj)
  rw [← Finset.add_sum_erase _ f (Finset.mem_univ i),
    ← Finset.add_sum_erase _ g (Finset.mem_univ i)]
  omega

omit [DecidableEq ι] in
/-- One component contributes at most the whole sum. -/
theorem le_sum (f : β → ℕ) (g : ι → β) (i : ι) : f (g i) ≤ ∑ j, f (g j) :=
  Finset.single_le_sum (f := fun j => f (g j)) (fun _ _ => Nat.zero_le _) (Finset.mem_univ i)

/-- Two different components together contribute at most the whole sum. -/
theorem add_le_sum (f : β → ℕ) (g : ι → β) {i j : ι} (hij : i ≠ j) :
    f (g i) + f (g j) ≤ ∑ k, f (g k) := by
  rw [← Finset.sum_pair (f := fun k => f (g k)) hij]
  exact Finset.sum_le_sum_of_subset (Finset.subset_univ _)

end ToMathlib
