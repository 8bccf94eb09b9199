import Mathlib.Data.List.Basic
import Mathlib.Data.Nat.Notation

/-!
# Removal from vectors

`Util::QuickRemoveAll()` and `Util::QuickRemoveAllIf()` (`util.hpp`). Both walk over a vector with
an end that they take once, before the first removal. An element that matches is overwritten with
the element before that end, and the vector loses its last element.

A vector is the list of its elements, so the length of the list is the size at that moment. Every
access goes through `readAt`, `writeAt` and `popBack`, which fail outside of the vector: there the
source has undefined behaviour.

## Main results

- `removeLoop_short`: once the vector is shorter than the end of the loop, the loop leaves it.
- `leaves_removeLoop_iff`: the loop is right on the vectors in which no element before the last one
  matches, and on no others.
-/

namespace Asrt.Util

variable {α : Type}

/-! ## Checked accesses -/

/-- An access outside of a vector. -/
structure OutOfRange where
  /-- The position that is accessed. -/
  position : ℕ
  /-- The size of the vector at that moment. -/
  size : ℕ
deriving DecidableEq, Repr

/-- Read the element at a position. -/
def readAt (container : List α) (i : ℕ) : Except OutOfRange α :=
  match container[i]? with
  | some x => .ok x
  | none => .error ⟨i, container.length⟩

/-- Overwrite the element at a position. -/
def writeAt (container : List α) (i : ℕ) (x : α) : Except OutOfRange (List α) :=
  if i < container.length then .ok (container.set i x) else .error ⟨i, container.length⟩

/-- `pop_back()` -/
def popBack (container : List α) : Except OutOfRange (List α) :=
  if container = [] then .error ⟨0, 0⟩ else .ok container.dropLast

theorem readAt_of_getElem? {container : List α} {i : ℕ} {x : α} (h : container[i]? = some x) :
    readAt container i = .ok x := by
  rw [readAt, h]

theorem readAt_of_le {container : List α} {i : ℕ} (h : container.length ≤ i) :
    readAt container i = .error ⟨i, container.length⟩ := by
  rw [readAt, List.getElem?_eq_none h]

/-! ## The loop -/

/-- The loop of both functions. `test` decides if the element at a position is to be removed, `last`
is `std::prev(end)`, and the first number is how far `it` is from `end`.

The move leaves nothing behind that is read later: where `last` is inside the vector, it is the last
element, which `pop_back()` destroys. -/
def removeLoop (test : List α → ℕ → Except OutOfRange Bool) (last : ℕ) :
    ℕ → ℕ → List α → Except OutOfRange (List α)
  | 0, _, container => .ok container
  | left + 1, it, container => do
    if ← test container it then
      let moved ← readAt container last
      let container ← writeAt container it moved
      let container ← popBack container
      removeLoop test last left (it + 1) container
    else
      removeLoop test last left (it + 1) container

/-- What the argument `value` of `QuickRemoveAll()` refers to. It is a mutable reference, so it may
be an element of the vector itself. -/
inductive Reference (α : Type) (n : ℕ)
  | outside (value : α)
  | element (i : Fin n)

/-- The value that a reference has while the vector has the given elements. -/
def Reference.read {n : ℕ} (container : List α) : Reference α n → Except OutOfRange α
  | outside value => .ok value
  | element i => readAt container i

/-- The value that is passed to the call. -/
def Reference.value {container : List α} : Reference α container.length → α
  | outside value => value
  | element i => container[i]

/-- The comparison `*it == value`. -/
def isValue [BEq α] {n : ℕ} (value : Reference α n) (container : List α) (it : ℕ) :
    Except OutOfRange Bool := do
  let x ← readAt container it
  let v ← value.read container
  return x == v

/-- The call `pred(*it)`. -/
def satisfies (pred : α → Bool) (container : List α) (it : ℕ) : Except OutOfRange Bool := do
  let x ← readAt container it
  return pred x

/-- `QuickRemoveAll()` -/
def quickRemoveAll [BEq α] (container : List α) (value : Reference α container.length) :
    Except OutOfRange (List α) :=
  removeLoop (isValue value) (container.length - 1) container.length 0 container

/-- `QuickRemoveAllIf()` -/
def quickRemoveAllIf (container : List α) (pred : α → Bool) : Except OutOfRange (List α) :=
  removeLoop (satisfies pred) (container.length - 1) container.length 0 container

/-- A removal stays inside of the vector and leaves the given elements in some order. -/
def Leaves (result : Except OutOfRange (List α)) (elements : List α) : Prop :=
  ∃ container, result = .ok container ∧ container.Perm elements

/-! ## Runs of the loop -/

section Loop

variable {test : List α → ℕ → Except OutOfRange Bool} {last left it : ℕ} {container : List α}

/-- An element that does not match is passed over. -/
theorem removeLoop_succ_of_false (h : test container it = .ok false) :
    removeLoop test last (left + 1) it container =
      removeLoop test last left (it + 1) container := by
  rw [removeLoop, h]
  rfl

/-- A match takes the place of the element before the end, and the vector gets shorter. -/
theorem removeLoop_succ_of_true {x : α} (h : test container it = .ok true)
    (hit : it < container.length) (hlast : container[last]? = some x) :
    removeLoop test last (left + 1) it container =
      removeLoop test last left (it + 1) (container.set it x).dropLast := by
  have hne : container.set it x ≠ [] := by
    apply List.ne_nil_of_length_pos
    rw [List.length_set]
    omega
  have hpop : popBack (container.set it x) = .ok (container.set it x).dropLast := if_neg hne
  have hwrite : writeAt container it x = .ok (container.set it x) := if_pos hit
  simp only [removeLoop, h, readAt_of_getElem? hlast, hwrite, hpop, bind, Except.bind, if_true]

/-- A match for which the element before the end is gone. -/
theorem removeLoop_succ_of_length_le (h : test container it = .ok true)
    (hlast : container.length ≤ last) :
    removeLoop test last (left + 1) it container = .error ⟨last, container.length⟩ := by
  simp only [removeLoop, h, readAt_of_le hlast, bind, Except.bind, if_true]

/-- A test that fails ends the loop. -/
theorem removeLoop_succ_of_error {e : OutOfRange} (h : test container it = .error e) :
    removeLoop test last (left + 1) it container = .error e := by
  rw [removeLoop, h]
  rfl

/-- A test that fails outside of the vector succeeds only inside. -/
theorem lt_length_of_test (hout : ∀ xs i, xs.length ≤ i → ∃ e, test xs i = .error e) {b : Bool}
    (h : test container it = .ok b) : it < container.length := by
  by_contra hle
  obtain ⟨e, he⟩ := hout container it (Nat.le_of_not_lt hle)
  rw [he] at h
  cases h

/-- Once the vector is shorter than the end of the loop, the loop leaves it: no iteration makes the
vector longer, and the last one tests the position before the end. -/
theorem removeLoop_short (hout : ∀ xs i, xs.length ≤ i → ∃ e, test xs i = .error e)
    (hle : container.length ≤ it + left) :
    ∃ e, removeLoop test last (left + 1) it container = .error e := by
  induction left generalizing it container with
  | zero =>
    obtain ⟨e, he⟩ := hout container it hle
    exact ⟨e, removeLoop_succ_of_error he⟩
  | succ left ih =>
    cases htest : test container it with
    | error e => exact ⟨e, removeLoop_succ_of_error htest⟩
    | ok b =>
      cases b with
      | false =>
        rw [removeLoop_succ_of_false htest]
        exact ih (by omega)
      | true =>
        rcases Nat.lt_or_ge last container.length with hlast | hlast
        · rw [removeLoop_succ_of_true htest (lt_length_of_test hout htest)
            (List.getElem?_eq_getElem hlast)]
          refine ih ?_
          rw [List.length_dropLast, List.length_set]
          omega
        · exact ⟨_, removeLoop_succ_of_length_le htest hlast⟩

variable {p : α → Bool} {xs : List α}

/-- Up to the first match the loop does nothing. The vector ends where the loop does; of the
elements from `it` on only the last one may match. -/
theorem removeLoop_of_forall (hspec : ∀ i x, xs[i]? = some x → test xs i = .ok (p x))
    (hlen : it + (left + 1) = xs.length)
    (hnone : ∀ i x, it ≤ i → i + 1 < xs.length → xs[i]? = some x → p x = false) :
    ∃ x, xs.getLast? = some x ∧ removeLoop test (xs.length - 1) (left + 1) it xs =
      .ok (if p x then xs.dropLast else xs) := by
  induction left generalizing it with
  | zero =>
    obtain ⟨x, hx⟩ : ∃ x, xs[it]? = some x := ⟨_, List.getElem?_eq_getElem (by omega)⟩
    have hlast : xs.length - 1 = it := by omega
    refine ⟨x, by rw [List.getLast?_eq_getElem?, hlast, hx], ?_⟩
    have htest := hspec it x hx
    cases hp : p x with
    | false =>
      rw [hp] at htest
      rw [removeLoop_succ_of_false htest]
      rfl
    | true =>
      rw [hp] at htest
      -- the last element is moved onto itself and popped
      have hself : xs.set it x = xs := by
        obtain ⟨h, rfl⟩ := List.getElem?_eq_some_iff.mp hx
        exact List.set_getElem_self h
      rw [hlast, removeLoop_succ_of_true htest (by omega) hx, hself]
      rfl
  | succ left ih =>
    obtain ⟨y, hy⟩ : ∃ y, xs[it]? = some y := ⟨_, List.getElem?_eq_getElem (by omega)⟩
    have htest := hspec it y hy
    rw [hnone it y (Nat.le_refl it) (by omega) hy] at htest
    rw [removeLoop_succ_of_false htest]
    exact ih (by omega) fun i x hi => hnone i x (by omega)

/-- A match before the last element takes the loop out of the vector. -/
theorem removeLoop_of_exists (hspec : ∀ i x, xs[i]? = some x → test xs i = .ok (p x))
    (hout : ∀ ys i, ys.length ≤ i → ∃ e, test ys i = .error e)
    (hlen : it + (left + 1) = xs.length) {j : ℕ} {z : α} (hj : it ≤ j) (hlast : j + 1 < xs.length)
    (hz : xs[j]? = some z) (hp : p z = true) :
    ∃ e, removeLoop test (xs.length - 1) (left + 1) it xs = .error e := by
  induction left generalizing it with
  | zero => omega
  | succ left ih =>
    obtain ⟨y, hy⟩ : ∃ y, xs[it]? = some y := ⟨_, List.getElem?_eq_getElem (by omega)⟩
    have htest := hspec it y hy
    cases hpy : p y with
    | true =>
      rw [hpy] at htest
      rw [removeLoop_succ_of_true htest (by omega) (List.getElem?_eq_getElem (by omega))]
      apply removeLoop_short hout
      rw [List.length_dropLast, List.length_set]
      omega
    | false =>
      rw [hpy] at htest
      rw [removeLoop_succ_of_false htest]
      have hne : it ≠ j := by
        rintro rfl
        rw [hz, Option.some.injEq] at hy
        rw [hy, hpy] at hp
        cases hp
      exact ih (by omega) (by omega)

/-- The loop is right exactly where no element before the last one matches. -/
theorem leaves_removeLoop_iff (hspec : ∀ i x, xs[i]? = some x → test xs i = .ok (p x))
    (hout : ∀ ys i, ys.length ≤ i → ∃ e, test ys i = .error e) :
    Leaves (removeLoop test (xs.length - 1) xs.length 0 xs) (xs.filter fun x => !p x) ↔
      ∀ x ∈ xs.dropLast, p x = false := by
  rcases List.eq_nil_or_concat xs with rfl | ⟨ys, z, rfl⟩
  · simp [Leaves, removeLoop]
  · rw [List.concat_eq_append] at hspec ⊢
    have hlen : (ys ++ [z]).length = ys.length + 1 := by simp
    have hrange : 0 + (ys.length + 1) = (ys ++ [z]).length := by omega
    rw [List.dropLast_concat]
    constructor
    · -- the first match takes the loop out of the vector
      rintro ⟨container, hok, -⟩ x hx
      by_contra hp
      obtain ⟨j, hlt, rfl⟩ := List.getElem_of_mem hx
      have hget : (ys ++ [z])[j]? = some ys[j] := by
        rw [List.getElem?_append_left hlt, List.getElem?_eq_getElem hlt]
      obtain ⟨e, he⟩ := removeLoop_of_exists hspec hout hrange (Nat.zero_le j) (by omega) hget
        (by simpa using hp)
      rw [← hlen, hok] at he
      cases he
    · intro hnone
      have hbefore : ∀ i x, 0 ≤ i → i + 1 < (ys ++ [z]).length → (ys ++ [z])[i]? = some x →
          p x = false := by
        intro i x _ hi hx
        rw [List.getElem?_append_left (by omega)] at hx
        exact hnone x (List.mem_of_getElem? hx)
      obtain ⟨x, hx, hrun⟩ := removeLoop_of_forall hspec hrange hbefore
      obtain rfl : z = x := by simpa using hx
      have hfilter : ys.filter (fun x => !p x) = ys :=
        List.filter_eq_self.mpr fun x hx => by simp [hnone x hx]
      rw [← hlen] at hrun
      refine ⟨_, hrun, ?_⟩
      -- only the last element may be missing
      rw [List.dropLast_concat, List.filter_append, hfilter]
      cases hp : p z with
      | true => simp [hp]
      | false => simp [hp]

end Loop

/-! ## The two functions -/

theorem isValue_spec [BEq α] {container : List α} (value : Reference α container.length) {i : ℕ}
    {x : α} (h : container[i]? = some x) : isValue value container i = .ok (x == value.value) := by
  cases value with
  | outside v =>
    rw [isValue, readAt_of_getElem? h]
    rfl
  | element j =>
    have hj : container[j.val]? = some container[j] := List.getElem?_eq_getElem j.isLt
    simp only [isValue, Reference.read, readAt_of_getElem? h, readAt_of_getElem? hj]
    rfl

theorem isValue_of_le [BEq α] {n : ℕ} (value : Reference α n) {container : List α} {i : ℕ}
    (h : container.length ≤ i) : ∃ e, isValue value container i = .error e := by
  rw [isValue, readAt_of_le h]
  exact ⟨_, rfl⟩

theorem satisfies_spec (pred : α → Bool) {container : List α} {i : ℕ} {x : α}
    (h : container[i]? = some x) : satisfies pred container i = .ok (pred x) := by
  rw [satisfies, readAt_of_getElem? h]
  rfl

theorem satisfies_of_le (pred : α → Bool) {container : List α} {i : ℕ}
    (h : container.length ≤ i) : ∃ e, satisfies pred container i = .error e := by
  rw [satisfies, readAt_of_le h]
  exact ⟨_, rfl⟩

/-- Both functions leave exactly the elements that do not match, without an access outside of the
vector, if and only if no element before the last one matches. -/
theorem quickRemoveAll_leaves_iff :
    (∀ [BEq α] (container : List α) (value : Reference α container.length),
      Leaves (quickRemoveAll container value) (container.filter fun x => !(x == value.value)) ↔
        ∀ x ∈ container.dropLast, (x == value.value) = false) ∧
    (∀ (container : List α) (pred : α → Bool),
      Leaves (quickRemoveAllIf container pred) (container.filter fun x => !pred x) ↔
        ∀ x ∈ container.dropLast, pred x = false) := by
  constructor
  · intro _ container value
    exact leaves_removeLoop_iff (fun _ _ => isValue_spec value) fun _ _ => isValue_of_le value
  · intro container pred
    exact leaves_removeLoop_iff (fun _ _ => satisfies_spec pred) fun _ _ => satisfies_of_le pred

/-- Removing `1` from `[1, 2]` tests the position of the element that was popped, and so does
removing the odd elements. -/
theorem not_leaves_quickRemoveAll :
    ¬ Leaves (quickRemoveAll [1, 2] (.outside 1)) ([1, 2].filter fun x => !(x == 1)) ∧
    ¬ Leaves (quickRemoveAllIf [1, 2] fun x => x % 2 == 1)
      ([1, 2].filter fun x => !(x % 2 == 1)) := by
  have hvalue : quickRemoveAll [1, 2] (.outside 1) = .error ⟨1, 1⟩ := rfl
  have hpred : quickRemoveAllIf [1, 2] (fun x => x % 2 == 1) = .error ⟨1, 1⟩ := rfl
  constructor
  · rintro ⟨_, hok, -⟩
    rw [hvalue] at hok
    cases hok
  · rintro ⟨_, hok, -⟩
    rw [hpred] at hok
    cases hok

end Asrt.Util
