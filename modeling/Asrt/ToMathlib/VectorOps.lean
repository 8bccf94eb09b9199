import Mathlib.Algebra.BigOperators.Group.List.Basic
import Mathlib.Algebra.Ring.Nat
import Mathlib.Data.List.Perm.Basic
import Mathlib.Data.Nat.Notation

/-!
# Removal, replacement and heaps in vectors

Idioms of vectors, on lists: replacing and removing the element at a position, removing an element
by moving the last one into its place, and arranging the elements as a binary heap. They are
described up to permutation.
-/

namespace ToMathlib

variable {α : Type*}

/-! ## Positions -/

/-- Replacing an element by one with the same image keeps the images. -/
theorem map_set_of_eq {β : Type*} (f : α → β) {xs : List α} {i : ℕ} {x y : α}
    (hi : xs[i]? = some x) (hf : f y = f x) : (xs.set i y).map f = xs.map f := by
  obtain ⟨hlt, rfl⟩ := List.getElem?_eq_some_iff.mp hi
  rw [List.map_set, hf, ← List.getElem_map f (h := by simpa using hlt), List.set_getElem_self]

/-- The element at a position and the others are all elements. -/
theorem cons_eraseIdx_perm {xs : List α} {i : ℕ} {x : α} (hi : xs[i]? = some x) :
    (x :: xs.eraseIdx i).Perm xs := by
  obtain ⟨hlt, rfl⟩ := List.getElem?_eq_some_iff.mp hi
  exact List.getElem_cons_eraseIdx_perm hlt

/-- Removing an element takes its contribution from a sum. -/
theorem sum_map_eraseIdx (f : α → ℕ) {xs : List α} {i : ℕ} {x : α} (hi : xs[i]? = some x) :
    ((xs.eraseIdx i).map f).sum + f x = (xs.map f).sum := by
  have hsum := ((cons_eraseIdx_perm hi).map f).sum_nat
  rw [List.map_cons, List.sum_cons] at hsum
  omega

/-- Replacing an element replaces its contribution to a sum. -/
theorem sum_map_set (f : α → ℕ) {xs : List α} {i : ℕ} {x : α} (hi : xs[i]? = some x) (y : α) :
    ((xs.set i y).map f).sum + f x = (xs.map f).sum + f y := by
  obtain ⟨hlt, -⟩ := List.getElem?_eq_some_iff.mp hi
  have hsum := ((List.set_perm_cons_eraseIdx hlt y).map f).sum_nat
  have herase := sum_map_eraseIdx f hi
  rw [List.map_cons, List.sum_cons] at hsum
  omega

/-- The elements at all positions, in order, are the list. -/
theorem filterMap_getElem?_range (xs : List α) :
    ((List.range xs.length).filterMap fun i => xs[i]?) = xs := by
  induction xs with
  | nil => rfl
  | cons x xs ih =>
    have hhead : (x :: xs)[0]? = some x := rfl
    rw [List.length_cons, List.range_succ_eq_map, List.filterMap_cons, hhead, List.filterMap_map]
    exact congrArg (List.cons x) ih

/-- An element that is selected stands among the selected ones after those before it. -/
theorem getElem?_filter_countP_take (p : α → Bool) {xs : List α} {i : ℕ} {x : α}
    (hi : xs[i]? = some x) (hx : p x = true) :
    (xs.filter p)[(xs.take i).countP p]? = some x := by
  induction xs generalizing i with
  | nil => simp at hi
  | cons y ys ih =>
    cases i with
    | zero =>
      obtain rfl : y = x := by simpa using hi
      simp [hx]
    | succ i =>
      have hrest := ih (i := i) (by simpa using hi)
      cases hy : p y with
      | true => simpa [hy] using hrest
      | false => simpa [hy] using hrest

/-- Removing an element that is selected removes it from the selected ones. -/
theorem filter_eraseIdx_of_pos (p : α → Bool) {xs : List α} {i : ℕ} {x : α}
    (hi : xs[i]? = some x) (hx : p x = true) :
    (xs.eraseIdx i).filter p = (xs.filter p).eraseIdx ((xs.take i).countP p) := by
  induction xs generalizing i with
  | nil => simp at hi
  | cons y ys ih =>
    cases i with
    | zero =>
      obtain rfl : y = x := by simpa using hi
      simp [hx]
    | succ i =>
      have hrest := ih (i := i) (by simpa using hi)
      cases hy : p y with
      | true => simpa [hy] using hrest
      | false => simpa [hy] using hrest

/-- Removing an element that is not selected keeps the selected ones. -/
theorem filter_eraseIdx_of_neg (p : α → Bool) {xs : List α} {i : ℕ} {x : α}
    (hi : xs[i]? = some x) (hx : p x = false) : (xs.eraseIdx i).filter p = xs.filter p := by
  induction xs generalizing i with
  | nil => simp at hi
  | cons y ys ih =>
    cases i with
    | zero =>
      obtain rfl : y = x := by simpa using hi
      simp [hx]
    | succ i => simp [List.filter_cons, ih (i := i) (by simpa using hi)]

/-- Replacing an element replaces what it contributes to a count. -/
theorem countP_set_add (p : α → Bool) {xs : List α} {i : ℕ} {x : α} (hi : xs[i]? = some x) (y : α) :
    (xs.set i y).countP p + (if p x then 1 else 0) = xs.countP p + (if p y then 1 else 0) := by
  obtain ⟨hlt, -⟩ := List.getElem?_eq_some_iff.mp hi
  have hset := (List.set_perm_cons_eraseIdx hlt y).countP_eq p
  have herase := (cons_eraseIdx_perm hi).countP_eq p
  rw [List.countP_cons] at hset herase
  omega

/-! ## Removal -/

/-- Removing an element takes what it contributes from a count. -/
theorem countP_erase_add [DecidableEq α] (p : α → Bool) {xs : List α} {x : α} (hx : x ∈ xs) :
    (xs.erase x).countP p + (if p x then 1 else 0) = xs.countP p := by
  rw [(List.perm_cons_erase hx).countP_eq, List.countP_cons]

/-- Remove the first element that satisfies `p`: the last element takes its place. -/
def swapRemove (p : α → Bool) (xs : List α) : List α :=
  match xs.findIdx? p, xs.getLast? with
  | some i, some last => (xs.set i last).dropLast
  | _, _ => xs

/-- The removal takes one element, and the order changes. -/
theorem swapRemove_perm (p : α → Bool) (xs : List α) : (swapRemove p xs).Perm (xs.eraseP p) := by
  rw [List.eraseP_eq_eraseIdx]
  cases hi : xs.findIdx? p with
  | none => simp [swapRemove, hi]
  | some i =>
    have hlt : i < xs.length := (List.findIdx?_eq_some_iff_findIdx_eq.mp hi).1
    have hne : xs ≠ [] := List.ne_nil_of_length_pos (by omega)
    simp only [swapRemove, hi, List.getLast?_eq_some_getLast hne]
    -- the list with the last element at position `i` ends with that element
    have hlast : (xs.set i (xs.getLast hne)).getLast? = some (xs.getLast hne) := by
      rw [List.getLast?_eq_getElem?, List.length_set, List.getElem?_set]
      split
      · rfl
      · rw [← List.getLast?_eq_getElem?, List.getLast?_eq_some_getLast hne]
    have hset := List.dropLast_append_getLast? _ hlast
    refine List.Perm.cons_inv (a := xs.getLast hne) ?_
    refine (List.perm_append_singleton _ _).symm.trans ?_
    rw [hset]
    exact List.set_perm_cons_eraseIdx hlt _

/-- If the values of `f` are distinct, removing by a value of `f` removes all elements with it. -/
theorem mem_swapRemove_iff {β : Type*} [DecidableEq β] {f : α → β} {xs : List α}
    (h : (xs.map f).Nodup) {x : α} {b : β} :
    x ∈ swapRemove (fun y => f y = b) xs ↔ x ∈ xs ∧ f x ≠ b := by
  rw [(swapRemove_perm _ xs).mem_iff]
  induction xs with
  | nil => simp
  | cons y ys ih =>
    obtain ⟨hy, hys⟩ := List.nodup_cons.mp h
    by_cases hb : f y = b
    · rw [List.eraseP_cons_of_pos (by simpa using hb), List.mem_cons]
      constructor
      · intro hx
        refine ⟨.inr hx, ?_⟩
        rintro rfl
        exact hy (hb ▸ List.mem_map_of_mem hx)
      · rintro ⟨rfl | hx, hne⟩
        · exact absurd hb hne
        · exact hx
    · rw [List.eraseP_cons_of_neg (by simpa using hb), List.mem_cons, List.mem_cons, ih hys]
      constructor
      · rintro (rfl | ⟨hx, hne⟩)
        · exact ⟨.inl rfl, hb⟩
        · exact ⟨.inr hx, hne⟩
      · rintro ⟨rfl | hx, hne⟩
        · exact .inl rfl
        · exact .inr ⟨hx, hne⟩

/-- Removal keeps the values of `f` distinct. -/
theorem nodup_map_swapRemove {β : Type*} {f : α → β} {xs : List α} (p : α → Bool)
    (h : (xs.map f).Nodup) : ((swapRemove p xs).map f).Nodup := by
  rw [((swapRemove_perm p xs).map f).nodup_iff]
  exact h.sublist ((List.eraseP_sublist).map f)

/-! ## Heaps -/

/-- Exchange two elements of a list. -/
def swap (xs : List α) (i j : ℕ) : List α :=
  match xs[i]?, xs[j]? with
  | some a, some b => (xs.set i b).set j a
  | _, _ => xs

/-- Move the element at position `i` down until none of its children comes after it. The first
argument bounds the number of moves. -/
def siftDown (comp : α → α → Bool) : ℕ → ℕ → List α → List α
  | 0, _, xs => xs
  | fuel + 1, i, xs =>
    let child :=
      match xs[2 * i + 1]?, xs[2 * i + 2]? with
      | some a, some b => if comp a b then 2 * i + 2 else 2 * i + 1
      | _, _ => 2 * i + 1
    match xs[i]?, xs[child]? with
    | some a, some b =>
      if comp a b then siftDown comp fuel child (swap xs i child) else xs
    | _, _ => xs

/-- Arrange the elements as a heap whose front no element comes after: the inner positions are
sifted down, the last one first. -/
def makeHeap (comp : α → α → Bool) (xs : List α) : List α :=
  (List.range (xs.length / 2)).foldr (fun i xs => siftDown comp xs.length i xs) xs

/-- An exchange keeps the elements. -/
theorem swap_perm (xs : List α) (i j : ℕ) : (swap xs i j).Perm xs := by
  unfold swap
  split
  · rename_i a b ha hb
    obtain ⟨hi, rfl⟩ := List.getElem?_eq_some_iff.mp ha
    obtain ⟨hj, rfl⟩ := List.getElem?_eq_some_iff.mp hb
    exact List.set_set_perm hi hj
  · exact .refl _

/-- Sifting keeps the elements. -/
theorem siftDown_perm (comp : α → α → Bool) (fuel i : ℕ) (xs : List α) :
    (siftDown comp fuel i xs).Perm xs := by
  induction fuel generalizing i xs with
  | zero => exact .refl _
  | succ fuel ih =>
    unfold siftDown
    dsimp only
    split
    · split
      · exact (ih _ _).trans (swap_perm _ _ _)
      · exact .refl _
    · exact .refl _

/-- Arranging as a heap keeps the elements. -/
theorem makeHeap_perm (comp : α → α → Bool) (xs : List α) : (makeHeap comp xs).Perm xs := by
  unfold makeHeap
  induction List.range (xs.length / 2) with
  | nil => exact .refl _
  | cons i is ih => exact (siftDown_perm _ _ _ _).trans ih

end ToMathlib
