import Asrt.ToMathlib.VectorOps
import Mathlib.Tactic.SplitIfs

/-!
# Binary heaps

`makeHeap` arranges a list as a binary heap. `comp a b` says that `a` comes after `b`; in a heap no
element comes after one of its children. The order is a strict weak one, so elements may be level.

While an element is sifted down from a position, the heap has a hole there: every other parent is in
order with its children, and the parent of the hole is so with the children of the hole
(`HeapExcept`).

## Main results

- `isHeap_makeHeap`: the result of `makeHeap` is a heap.
- `IsHeap.head_le`: the front of a heap does not come after any of its elements.
-/

namespace ToMathlib

variable {α : Type*} {comp : α → α → Bool} {xs : List α}

/-- A strict weak order: asymmetric, and not coming after is transitive. -/
structure StrictWeak (comp : α → α → Bool) : Prop where
  asymm : ∀ {a b}, comp a b = true → comp b a = false
  trans : ∀ {a b c}, comp a b = false → comp b c = false → comp a c = false

/-- Position `c` is a child of position `p`. -/
def IsChild (p c : ℕ) : Prop := c = 2 * p + 1 ∨ c = 2 * p + 2

theorem IsChild.lt {p c : ℕ} (h : IsChild p c) : p < c := by
  unfold IsChild at h
  omega

/-- A position has one parent. -/
theorem IsChild.parent_eq {p p' c : ℕ} (h : IsChild p c) (h' : IsChild p' c) : p = p' := by
  unfold IsChild at h h'
  omega

/-- From position `k` on, no element comes after one of its children. -/
def HeapFrom (comp : α → α → Bool) (k : ℕ) (xs : List α) : Prop :=
  ∀ p c a b, k ≤ p → IsChild p c → xs[p]? = some a → xs[c]? = some b → comp a b = false

/-- No element comes after one of its children. -/
def IsHeap (comp : α → α → Bool) (xs : List α) : Prop := HeapFrom comp 0 xs

/-- From position `k` on, the elements are in order but for that at the hole, which may come after
its children. -/
structure HeapExcept (comp : α → α → Bool) (k hole : ℕ) (xs : List α) : Prop where
  off : ∀ p c a b, k ≤ p → p ≠ hole → IsChild p c → xs[p]? = some a → xs[c]? = some b →
    comp a b = false
  across : ∀ p c a b, k ≤ p → IsChild p hole → IsChild hole c → xs[p]? = some a →
    xs[c]? = some b → comp a b = false

/-! ## Sifting down -/

/-- The child that `siftDown` compares an element with: the right one if the left one comes after
it. -/
def topChild (comp : α → α → Bool) (xs : List α) (i : ℕ) : ℕ :=
  match xs[2 * i + 1]?, xs[2 * i + 2]? with
  | some a, some b => if comp a b then 2 * i + 2 else 2 * i + 1
  | _, _ => 2 * i + 1

theorem siftDown_succ (fuel i : ℕ) (xs : List α) :
    siftDown comp (fuel + 1) i xs =
      match xs[i]?, xs[topChild comp xs i]? with
      | some a, some b =>
        if comp a b then siftDown comp fuel (topChild comp xs i) (swap xs i (topChild comp xs i))
        else xs
      | _, _ => xs := rfl

theorem topChild_isChild (comp : α → α → Bool) (xs : List α) (i : ℕ) :
    IsChild i (topChild comp xs i) := by
  unfold topChild IsChild
  split
  · split <;> omega
  · omega

/-- If there is no top child, there is no child. -/
theorem getElem?_eq_none_of_topChild {i c : ℕ} (h : xs[topChild comp xs i]? = none)
    (hc : IsChild i c) : xs[c]? = none := by
  have hleft : xs[2 * i + 1]? = none := by
    unfold topChild at h
    split at h
    · rename_i a b ha hb
      split at h
      · rw [hb] at h
        cases h
      · exact h
    · exact h
  rw [List.getElem?_eq_none_iff] at hleft ⊢
  have := hc.lt
  unfold IsChild at hc
  omega

/-- The top child does not come after any child. -/
theorem topChild_le (hcomp : StrictWeak comp) {i c : ℕ} {t b : α}
    (ht : xs[topChild comp xs i]? = some t) (hc : IsChild i c) (hb : xs[c]? = some b) :
    comp t b = false := by
  have hirrefl : comp t t = false := by
    cases h : comp t t with
    | false => rfl
    | true => exact h ▸ hcomp.asymm h
  -- the top child is the other child, or `c` itself
  unfold topChild at ht
  rcases hc with rfl | rfl
  · split at ht
    · rename_i l r hl hr
      obtain rfl : l = b := Option.some.inj (hl.symm.trans hb)
      split at ht
      · rename_i hlr
        obtain rfl : r = t := Option.some.inj (hr.symm.trans ht)
        exact hcomp.asymm hlr
      · obtain rfl : l = t := Option.some.inj (hl.symm.trans ht)
        exact hirrefl
    · obtain rfl : b = t := Option.some.inj (hb.symm.trans ht)
      exact hirrefl
  · split at ht
    · rename_i l r hl hr
      obtain rfl : r = b := Option.some.inj (hr.symm.trans hb)
      split at ht
      · obtain rfl : r = t := Option.some.inj (hr.symm.trans ht)
        exact hirrefl
      · rename_i hlr
        obtain rfl : l = t := Option.some.inj (hl.symm.trans ht)
        simpa using hlr
    · rename_i hnone
      exact absurd hb (hnone t b ht)

/-- The elements after an exchange of two of them. -/
theorem getElem?_swap {i j : ℕ} {a b : α} (hi : xs[i]? = some a) (hj : xs[j]? = some b) (k : ℕ) :
    (swap xs i j)[k]? = if k = j then some a else if k = i then some b else xs[k]? := by
  obtain ⟨hilt, rfl⟩ := List.getElem?_eq_some_iff.mp hi
  obtain ⟨hjlt, rfl⟩ := List.getElem?_eq_some_iff.mp hj
  simp only [swap, hi, hj, List.getElem?_set, List.length_set]
  grind

/-- Exchanging the element at the hole with its top child moves the hole there. -/
theorem HeapExcept.move (hcomp : StrictWeak comp) {k hole : ℕ} (h : HeapExcept comp k hole xs)
    (hk : k ≤ hole) {a t : α} (ha : xs[hole]? = some a)
    (ht : xs[topChild comp xs hole]? = some t) (hat : comp a t = true) :
    HeapExcept comp k (topChild comp xs hole) (swap xs hole (topChild comp xs hole)) := by
  have hchild := topChild_isChild comp xs hole
  have hmin : ∀ c b, IsChild hole c → xs[c]? = some b → comp t b = false := fun c b hc hb =>
    topChild_le hcomp ht hc hb
  generalize topChild comp xs hole = top at hchild ht
  have hlt := hchild.lt
  have hget := getElem?_swap ha ht
  refine ⟨fun p c x y hkp hp hc hx hy => ?_, fun p c x y hkp hp hc hx hy => ?_⟩
  · rw [hget, if_neg hp] at hx
    rw [hget] at hy
    by_cases hph : p = hole
    · -- the new parent at the hole is the least of the children and of the old parent
      subst hph
      obtain rfl : t = x := by simpa using hx
      split_ifs at hy with hct hcp
      · obtain rfl : a = y := Option.some.inj hy
        exact hcomp.asymm hat
      · exact absurd hcp (Nat.ne_of_gt hc.lt)
      · exact hmin c y hc hy
    · rw [if_neg hph] at hx
      split_ifs at hy with hct hch
      · exact absurd ((hct ▸ hc).parent_eq hchild) hph
      · obtain rfl : t = y := Option.some.inj hy
        exact h.across p top x t hkp (hch ▸ hc) hchild hx ht
      · exact h.off p c x y hkp hph hc hx hy
  · obtain rfl := hp.parent_eq hchild
    have hcp := hc.lt
    rw [hget, if_neg (Nat.ne_of_lt hlt), if_pos rfl] at hx
    rw [hget, if_neg (Nat.ne_of_gt hcp), if_neg (by omega)] at hy
    obtain rfl : t = x := Option.some.inj hx
    exact h.off top c t y (by omega) (Nat.ne_of_gt hlt) hc ht hy

/-- Without a child that it comes after, the element at the hole is in order. -/
theorem HeapExcept.heapFrom {k hole : ℕ} (h : HeapExcept comp k hole xs)
    (hstop : ∀ c a b, IsChild hole c → xs[hole]? = some a → xs[c]? = some b → comp a b = false) :
    HeapFrom comp k xs := by
  intro p c a b hkp hc ha hb
  by_cases hp : p = hole
  · subst hp
    exact hstop c a b hc ha hb
  · exact h.off p c a b hkp hp hc ha hb

/-- Sifting the element at the hole down closes the hole. -/
theorem heapFrom_siftDown (hcomp : StrictWeak comp) {k fuel hole : ℕ}
    (h : HeapExcept comp k hole xs) (hk : k ≤ hole) (hfuel : xs.length ≤ fuel + hole) :
    HeapFrom comp k (siftDown comp fuel hole xs) := by
  -- the hole moves down at each turn, so the bound on the turns is never met inside the list
  induction fuel generalizing hole xs with
  | zero =>
    refine h.heapFrom fun c a b _ ha _ => ?_
    obtain ⟨hlt, -⟩ := List.getElem?_eq_some_iff.mp ha
    omega
  | succ fuel ih =>
    have hchild := topChild_isChild comp xs hole
    rw [siftDown_succ]
    split
    · rename_i a t ha ht
      split
      · rename_i hat
        refine ih (h.move hcomp hk ha ht hat) (Nat.le_trans hk (Nat.le_of_lt hchild.lt)) ?_
        have hlen := (swap_perm xs hole (topChild comp xs hole)).length_eq
        have := hchild.lt
        omega
      · rename_i hat
        refine h.heapFrom fun c x y hc hx hy => ?_
        obtain rfl : a = x := Option.some.inj (ha.symm.trans hx)
        exact hcomp.trans (by simpa using hat) (topChild_le hcomp ht hc hy)
    · rename_i hnone
      refine h.heapFrom fun c x y hc hx hy => ?_
      have htop : xs[topChild comp xs hole]? = none := by
        cases ht : xs[topChild comp xs hole]? with
        | none => rfl
        | some t => exact absurd ht (hnone x t hx)
      rw [getElem?_eq_none_of_topChild htop hc] at hy
      cases hy

/-! ## Heaps -/

/-- Sifting down the positions below `k`, the last one first, extends the heap to the front. -/
theorem heapFrom_foldr_siftDown (hcomp : StrictWeak comp) {k : ℕ} (h : HeapFrom comp k xs) :
    HeapFrom comp 0 ((List.range k).foldr (fun i xs => siftDown comp xs.length i xs) xs) := by
  induction k generalizing xs with
  | zero => exact h
  | succ k ih =>
    rw [List.range_succ, List.foldr_append]
    refine ih (heapFrom_siftDown hcomp ⟨?_, ?_⟩ (Nat.le_refl k) (Nat.le_add_right _ _))
    · intro p c a b hkp hp
      exact h p c a b (by omega)
    · intro p c a b hkp hp
      have := hp.lt
      omega

/-- `makeHeap` makes a heap. -/
theorem isHeap_makeHeap (hcomp : StrictWeak comp) (xs : List α) :
    IsHeap comp (makeHeap comp xs) := by
  refine heapFrom_foldr_siftDown hcomp ?_
  -- the second half of the list has no children
  intro p c a b hp hc _ hb
  obtain ⟨hlt, -⟩ := List.getElem?_eq_some_iff.mp hb
  unfold IsChild at hc
  omega

/-- The front of a heap does not come after any element. -/
theorem IsHeap.head_le (hcomp : StrictWeak comp) {front : α} {rest : List α}
    (h : IsHeap comp (front :: rest)) {x : α} (hx : x ∈ front :: rest) : comp front x = false := by
  obtain ⟨i, hi⟩ := List.mem_iff_getElem?.mp hx
  -- from each position to its parent, up to the front
  induction i using Nat.strong_induction_on generalizing x with
  | _ i ih =>
    by_cases h0 : i = 0
    · subst h0
      obtain rfl : front = x := by simpa using hi
      cases hself : comp front front with
      | false => rfl
      | true => exact hself ▸ hcomp.asymm hself
    · have hchild : IsChild ((i - 1) / 2) i := by
        unfold IsChild
        omega
      obtain ⟨hlt, -⟩ := List.getElem?_eq_some_iff.mp hi
      obtain ⟨parent, hparent⟩ : ∃ parent, (front :: rest)[(i - 1) / 2]? = some parent :=
        ⟨_, List.getElem?_eq_getElem (Nat.lt_trans hchild.lt hlt)⟩
      have hup := ih _ hchild.lt (List.mem_of_getElem? hparent) hparent
      exact hcomp.trans hup (h _ _ _ _ (Nat.zero_le _) hchild hparent hi)

end ToMathlib
