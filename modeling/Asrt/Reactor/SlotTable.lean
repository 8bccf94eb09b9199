import Asrt.Reactor.Calls
import Mathlib.Order.Bounds.Basic

/-!
# The slots of the operation table

`FindFreeOperationSlot()` looks for a slot among the entries in use and the one after them, and
recomputes the end of the entries in use on the way. The table is used by I/O events and by software
events together.

Software events have no descriptor. They are registered under `kInvalidNativeHandle`, so that the
check for a descriptor that is registered already refuses the second one.

## Main definitions

* `EpollReactor.TableOk`: the invariant of the table.
* `EpollReactor.Releases`: what every call but a registration does to the table.
* `SlotTable.Coexist`: software events that are registered in a row all get an entry.

## Main results

* `EpollReactor.TableOk.findFreeOperationSlot_cases`: what the search does.
* `SlotTable.slot_allocation`: what it finds in every reachable state.
* `SlotTable.software_events_coexist_iff`: when software events can be registered.
-/

namespace Asrt.Reactor

namespace EpollReactor

variable {H : Type} {r r' : EpollReactor H} {tag : HandlerTag} {ioSource : NativeHandle}

/-- The entry is not registered, and none of its operations is posted. -/
def IsFree (r : EpollReactor H) (tag : HandlerTag) : Prop :=
  (r.operations tag).valid = false ∧ (r.operations tag).handlerPosted = false

instance (r : EpollReactor H) (tag : HandlerTag) : Decidable (r.IsFree tag) :=
  inferInstanceAs (Decidable (_ ∧ _))

/-- Some entry is registered for the descriptor. -/
def IsRegistered (r : EpollReactor H) (ioSource : NativeHandle) : Prop :=
  ∃ tag, (r.operations tag).valid = true ∧ (r.operations tag).ioSource = ioSource

/-- The invariant: the entries from `used_operations_end_` on are free, and no descriptor is
registered twice. -/
structure TableOk (r : EpollReactor H) : Prop where
  bound : r.usedOperationsEnd ≤ r.size
  beyond : ∀ tag, r.usedOperationsEnd ≤ tag → r.IsFree tag
  sources : ∀ t u, (r.operations t).valid = true → (r.operations u).valid = true →
    (r.operations t).ioSource = (r.operations u).ioSource → t = u

/-! ## The search -/

/-- One turn of the loop of `FindFreeOperationSlot()`, on an entry that does not end it. The entry
is the last one in use from then on unless it is free and a position was found before. -/
theorem findFreeOperationSlotLoop_turn {operations : HandlerTag → OperationEntry H} {it : ℕ}
    (hnew : ¬ ((operations it).valid = true ∧ (operations it).ioSource = ioSource))
    (its : List ℕ) (position last : Option ℕ) :
    ∃ position₁ last₁,
      findFreeOperationSlotLoop operations ioSource (it :: its) position last =
        findFreeOperationSlotLoop operations ioSource its position₁ last₁ ∧
      (position₁ = position ∨ position₁ = some it) ∧
      (last₁ = some it ∨ last₁ = last ∧ position₁ = position ∧
        (operations it).valid = false ∧ (operations it).handlerPosted = false) := by
  simp only [findFreeOperationSlotLoop]
  cases hvalid : (operations it).valid with
  | true =>
    rw [if_neg (by simp), if_neg fun heq => hnew ⟨hvalid, heq⟩]
    exact ⟨position, some it, rfl, .inl rfl, .inl rfl⟩
  | false =>
    cases hposted : (operations it).handlerPosted with
    -- a posted entry counts as used, but is not taken
    | true => exact ⟨position, some it, by simp, .inl rfl, .inl rfl⟩
    | false =>
      cases position with
      | none => exact ⟨some it, some it, by simp, .inr rfl, .inl rfl⟩
      | some found => exact ⟨some found, last, by simp, .inl rfl, .inr ⟨rfl, rfl, rfl, rfl⟩⟩

/-- The loop ends early exactly if one of the entries is registered for the descriptor. -/
theorem findFreeOperationSlotLoop_eq_error_iff {operations : HandlerTag → OperationEntry H}
    {its : List ℕ} {position last : Option ℕ} {ec : ErrorCode} :
    findFreeOperationSlotLoop operations ioSource its position last = .error ec ↔
      ec = .apiError ∧
        ∃ it ∈ its, (operations it).valid = true ∧ (operations it).ioSource = ioSource := by
  induction its generalizing position last with
  | nil => simp [findFreeOperationSlotLoop]
  | cons it its ih =>
    by_cases hnew : (operations it).valid = true ∧ (operations it).ioSource = ioSource
    · -- the loop returns here, whatever it has found before
      have hend : findFreeOperationSlotLoop operations ioSource (it :: its) position last =
          .error .apiError := by
        simp [findFreeOperationSlotLoop, hnew]
      rw [hend]
      constructor
      · intro heq
        exact ⟨(Except.error.inj heq).symm, it, List.mem_cons_self, hnew⟩
      · rintro ⟨rfl, -⟩
        rfl
    · obtain ⟨position₁, last₁, hturn, -, -⟩ :=
        findFreeOperationSlotLoop_turn hnew its position last
      rw [hturn, ih]
      simp [hnew]

/-- The last entry in use that the loop returns is one of those it visits, and it lies behind all
entries in use and behind the position. -/
theorem findFreeOperationSlotLoop_last {operations : HandlerTag → OperationEntry H} {its : List ℕ}
    {position last position' last' : Option ℕ}
    (h : findFreeOperationSlotLoop operations ioSource its position last =
      .ok (position', last'))
    (hsorted : its.Pairwise (· < ·)) (hlast : ∀ l ∈ last, ∀ it ∈ its, l < it)
    (hposition : ∀ p ∈ position, ∃ l ∈ last, p ≤ l) :
    (∀ l ∈ last', last = some l ∨ l ∈ its) ∧ (∀ l ∈ last, ∃ l' ∈ last', l ≤ l') ∧
      (∀ p ∈ position', ∃ l ∈ last', p ≤ l) ∧
      ∀ it ∈ its, (operations it).valid = true ∨ (operations it).handlerPosted = true →
        ∃ l ∈ last', it ≤ l := by
  induction its generalizing position last with
  | nil =>
    obtain ⟨rfl, rfl⟩ : position = position' ∧ last = last' := by
      simpa [findFreeOperationSlotLoop] using h
    exact ⟨fun l hl => .inl hl, fun l hl => ⟨l, hl, le_rfl⟩, hposition, by simp⟩
  | cons it its ih =>
    obtain ⟨hbefore, hsorted⟩ := List.pairwise_cons.mp hsorted
    have hnew : ¬ ((operations it).valid = true ∧ (operations it).ioSource = ioSource) := by
      intro hreg
      simp [findFreeOperationSlotLoop, hreg] at h
    obtain ⟨position₁, last₁, hturn, hpos₁, hlast₁⟩ :=
      findFreeOperationSlotLoop_turn hnew its position last
    rw [hturn] at h
    rcases hlast₁ with rfl | ⟨rfl, rfl, hvalid, hposted⟩
    · -- the entry is the last one in use so far
      have hposition₁ : ∀ p ∈ position₁, ∃ l ∈ some it, p ≤ l := by
        intro p hp
        refine ⟨it, rfl, ?_⟩
        rcases hpos₁ with rfl | rfl
        · obtain ⟨l, hl, hple⟩ := hposition p hp
          exact hple.trans (hlast l hl it List.mem_cons_self).le
        · exact (Option.some.inj hp).ge
      obtain ⟨hmem, hmono, hfound, huse⟩ := ih h hsorted (by simpa using hbefore) hposition₁
      obtain ⟨l', hl', hle⟩ := hmono it rfl
      refine ⟨?_, ?_, hfound, ?_⟩
      · intro l hl
        rcases hmem l hl with heq | hits
        · exact .inr (by simp [Option.some.inj heq])
        · exact .inr (List.mem_cons_of_mem _ hits)
      · intro l hl
        exact ⟨l', hl', (hlast l hl it List.mem_cons_self).le.trans hle⟩
      · intro it' hit' hin
        rcases List.mem_cons.mp hit' with rfl | hits
        · exact ⟨l', hl', hle⟩
        · exact huse it' hits hin
    · -- the entry is free, and not the first one
      obtain ⟨hmem, hmono, hfound, huse⟩ := ih h hsorted
        (fun l hl it' hit' => hlast l hl it' (List.mem_cons_of_mem _ hit')) hposition
      refine ⟨?_, hmono, hfound, ?_⟩
      · intro l hl
        exact (hmem l hl).imp_right (List.mem_cons_of_mem _)
      · intro it' hit' hin
        rcases List.mem_cons.mp hit' with rfl | hits
        · simp [hvalid, hposted] at hin
        · exact huse it' hits hin

/-- Behind the entries in use there is a free one, if there is an entry at all. -/
theorem TableOk.exists_free (h : r.TableOk) (hused : r.usedOperationsEnd ≠ r.size) :
    r.usedOperationsEnd < r.size ∧ r.IsFree r.usedOperationsEnd :=
  ⟨lt_of_le_of_ne h.bound hused, h.beyond _ le_rfl⟩

/-- The first free entry is one of those that the loop visits. -/
theorem TableOk.find?_visited (h : r.TableOk)
    (hexists : ∃ tag, tag < r.size ∧ r.IsFree tag) :
    (List.range (min (r.usedOperationsEnd + 1) r.size)).find?
      (fun it => !(r.operations it).valid && !(r.operations it).handlerPosted) =
      some (Nat.find hexists) := by
  have hleast := Nat.find_spec hexists
  have hbefore (u : ℕ) (hu : u < Nat.find hexists) : ¬ r.IsFree u := fun hfree =>
    Nat.find_min hexists hu ⟨hu.trans hleast.1, hfree⟩
  -- the entry behind those in use is visited, and is free if it exists
  have hvisited : Nat.find hexists < min (r.usedOperationsEnd + 1) r.size := by
    rw [lt_min_iff]
    refine ⟨?_, hleast.1⟩
    by_contra hge
    exact hbefore r.usedOperationsEnd (by omega) (h.beyond _ le_rfl)
  rw [List.find?_range_eq_some]
  refine ⟨by simp [hleast.2.1, hleast.2.2], List.mem_range.mpr hvisited, ?_⟩
  intro u hu
  have hin := hbefore u hu
  simp only [IsFree, not_and_or] at hin
  rcases hin with hin | hin
  · simp [hin]
  · simp [hin]

/-- What `FindFreeOperationSlot()` does: it refuses a descriptor that is registered, it finds the
table full, or it takes the first free entry and moves the end of the entries in use behind it and
behind all entries that are in use. -/
theorem TableOk.findFreeOperationSlot_cases (h : r.TableOk) (ioSource : NativeHandle) :
    (r.IsRegistered ioSource ∧ r.findFreeOperationSlot ioSource = (r, .error .apiError)) ∨
    (¬ r.IsRegistered ioSource ∧ (∀ tag < r.size, ¬ r.IsFree tag) ∧
      r.findFreeOperationSlot ioSource = (r, .error .capacityExceeded)) ∨
    (¬ r.IsRegistered ioSource ∧ ∃ tag used,
      IsLeast {tag | tag < r.size ∧ r.IsFree tag} tag ∧
      r.findFreeOperationSlot ioSource = ({ r with usedOperationsEnd := used }, .ok tag) ∧
      tag < used ∧ used ≤ r.size ∧ ∀ u, used ≤ u → r.IsFree u) := by
  by_cases hreg : r.IsRegistered ioSource
  · -- the entry is one of those in use, which are all visited
    refine .inl ⟨hreg, ?_⟩
    obtain ⟨tag, hvalid, hsource⟩ := hreg
    have hlt : tag < r.usedOperationsEnd := by
      by_contra hle
      have hfree := h.beyond tag (Nat.le_of_not_lt hle)
      simp [hfree.1] at hvalid
    have hloop : findFreeOperationSlotLoop r.operations ioSource
        (List.range (min (r.usedOperationsEnd + 1) r.size)) none none = .error .apiError := by
      refine findFreeOperationSlotLoop_eq_error_iff.mpr ⟨rfl, tag, ?_, hvalid, hsource⟩
      rw [List.mem_range, lt_min_iff]
      exact ⟨hlt.trans (Nat.lt_succ_self _), lt_of_lt_of_le hlt h.bound⟩
    simp [findFreeOperationSlot, hloop]
  · have hnew : ∀ it ∈ List.range (min (r.usedOperationsEnd + 1) r.size),
        (r.operations it).valid = true → (r.operations it).ioSource ≠ ioSource := by
      intro it _ hvalid hsource
      exact hreg ⟨it, hvalid, hsource⟩
    obtain ⟨last, hloop⟩ := findFreeOperationSlotLoop_first r.operations hnew none none
    rw [Option.none_or] at hloop
    by_cases hfull : ∀ tag < r.size, ¬ r.IsFree tag
    · -- the end of the entries in use has reached the end of the table
      refine .inr (.inl ⟨hreg, hfull, ?_⟩)
      have hused : r.usedOperationsEnd = r.size := by
        by_contra hne
        obtain ⟨hlt, hfree⟩ := h.exists_free hne
        exact hfull _ hlt hfree
      have hfind : (List.range (min (r.usedOperationsEnd + 1) r.size)).find?
          (fun it => !(r.operations it).valid && !(r.operations it).handlerPosted) = none := by
        rw [List.find?_eq_none]
        intro it hit hfree
        have hlt := List.mem_range.mp hit
        exact hfull it (by omega) (by simpa [IsFree] using hfree)
      rw [hfind] at hloop
      simp only [findFreeOperationSlot, hloop]
      rw [if_neg (by simp [hused])]
    · refine .inr (.inr ⟨hreg, ?_⟩)
      have hexists : ∃ tag, tag < r.size ∧ r.IsFree tag := by
        push Not at hfull
        exact hfull
      have hleast := Nat.find_spec hexists
      have hfind := h.find?_visited hexists
      rw [hfind] at hloop
      obtain ⟨hmem, -, hfound, huse⟩ := findFreeOperationSlotLoop_last hloop
        List.pairwise_lt_range (by simp) (by simp)
      obtain ⟨l, hl, hle⟩ := hfound _ rfl
      obtain rfl : last = some l := hl
      have hlmem : l ∈ List.range (min (r.usedOperationsEnd + 1) r.size) :=
        (hmem l rfl).resolve_left (by simp)
      have hlrange := List.mem_range.mp hlmem
      refine ⟨Nat.find hexists, if r.usedOperationsEnd ≠ r.size then l + 1 else
        r.usedOperationsEnd, ⟨hleast, ?_⟩, ?_, ?_, ?_, ?_⟩
      · intro u hu
        exact Nat.find_min' hexists hu
      · simp only [findFreeOperationSlot, hloop]
        split_ifs <;> rfl
      · split_ifs with hused <;> omega
      · split_ifs with hused <;> omega
      · intro u hu
        split_ifs at hu with hused
        · -- the entries behind the last one in use were visited, or are beyond the old end
          by_contra hin
          have hlt : u < r.usedOperationsEnd := by
            by_contra hge
            exact hin (h.beyond u (Nat.le_of_not_lt hge))
          have hbound := h.bound
          obtain ⟨l', hl', hle'⟩ := huse u (List.mem_range.mpr (by omega)) (by
            simp only [IsFree, not_and_or, Bool.not_eq_false] at hin
            exact hin)
          obtain rfl := Option.some.inj hl'
          omega
        · exact h.beyond u hu

/-! ## Registration -/

/-- Writing the entry that the search has found keeps the invariant. -/
theorem TableOk.setEntry_found (h : r.TableOk) (hnew : ¬ r.IsRegistered ioSource) {used : ℕ}
    (htag : tag < used) (hbound : used ≤ r.size) (hbeyond : ∀ u, used ≤ u → r.IsFree u)
    (kernel : Kernel) {entry : OperationEntry H} (hsource : entry.ioSource = ioSource) :
    ({ r with usedOperationsEnd := used, kernel }.setEntry tag entry).TableOk where
  bound := hbound
  beyond u hu := by
    have hne : u ≠ tag := (lt_of_lt_of_le htag hu).ne'
    simpa [IsFree, setEntry, hne] using hbeyond u hu
  sources t u ht hu heq := by
    -- the new entry differs from all others in its descriptor
    simp only [setEntry_operations] at ht hu heq
    by_cases htt : t = tag
    · by_cases hut : u = tag
      · exact htt.trans hut.symm
      · subst htt
        rw [Function.update_self, Function.update_of_ne hut] at heq
        rw [Function.update_of_ne hut] at hu
        exact absurd ⟨u, hu, heq.symm.trans hsource⟩ hnew
    · by_cases hut : u = tag
      · subst hut
        rw [Function.update_self, Function.update_of_ne htt] at heq
        rw [Function.update_of_ne htt] at ht
        exact absurd ⟨t, ht, heq.trans hsource⟩ hnew
      · rw [Function.update_of_ne htt, Function.update_of_ne hut] at heq
        rw [Function.update_of_ne htt] at ht
        rw [Function.update_of_ne hut] at hu
        exact h.sources t u ht hu heq

/-- `RegisterImpl()` keeps the invariant, whether epoll takes the descriptor or not. -/
theorem TableOk.registerImpl (h : r.TableOk) (regType : EventRegistrationType)
    (ioSource : NativeHandle) (events : Events) (handler : H) (resources : Bool) :
    (r.registerImpl regType ioSource events handler resources).1.TableOk := by
  rcases h.findFreeOperationSlot_cases ioSource with ⟨-, heq⟩ | ⟨-, -, heq⟩ |
    ⟨hnew, tag, used, -, heq, htag, hbound, hbeyond⟩
  · simp only [EpollReactor.registerImpl, heq]
    exact h
  · simp only [EpollReactor.registerImpl, heq]
    exact h
  · simp only [EpollReactor.registerImpl, heq]
    split
    · -- epoll refuses the descriptor; the end of the entries in use has moved all the same
      exact ⟨hbound, hbeyond, h.sources⟩
    · rename_i kernel _
      exact h.setEntry_found hnew htag hbound hbeyond kernel rfl

/-- A software event is registered under no descriptor, without epoll. -/
theorem registerSoftwareEvent_eq (r : EpollReactor H) (isOneshot : Bool) (handler : H) :
    ∃ regType events, regType ≠ .ioEvent ∧ r.registerSoftwareEvent isOneshot handler =
      r.registerImpl regType kInvalidNativeHandle events handler true := by
  cases isOneshot with
  | true => exact ⟨.oneShotSoftwareEvent, .oneShotSoftwareEvent, by decide, rfl⟩
  | false => exact ⟨.persistentSoftwareEvent, .persistentSoftwareEvent, by decide, rfl⟩

/-- What the registration of a software event does: it is refused if one is registered or no entry
is free, and takes a free entry otherwise. -/
theorem TableOk.registerSoftwareEvent_cases (h : r.TableOk) (isOneshot : Bool) (handler : H) :
    (r.IsRegistered kInvalidNativeHandle ∧
      r.registerSoftwareEvent isOneshot handler = (r, .error .apiError)) ∨
    (¬ r.IsRegistered kInvalidNativeHandle ∧ (∀ tag < r.size, ¬ r.IsFree tag) ∧
      r.registerSoftwareEvent isOneshot handler = (r, .error .capacityExceeded)) ∨
    (¬ r.IsRegistered kInvalidNativeHandle ∧ ∃ r' tag, r.IsFree tag ∧ r'.TableOk ∧
      r'.IsRegistered kInvalidNativeHandle ∧
      r.registerSoftwareEvent isOneshot handler = (r', .ok tag)) := by
  obtain ⟨regType, events, hregType, heq⟩ := registerSoftwareEvent_eq r isOneshot handler
  have hok := h.registerImpl regType kInvalidNativeHandle events handler true
  rw [heq]
  rcases h.findFreeOperationSlot_cases kInvalidNativeHandle with ⟨hreg, hfind⟩ |
    ⟨hnew, hfull, hfind⟩ | ⟨hnew, tag, used, hleast, hfind, -⟩
  · exact .inl ⟨hreg, by simp only [EpollReactor.registerImpl, hfind]⟩
  · exact .inr (.inl ⟨hnew, hfull, by simp only [EpollReactor.registerImpl, hfind]⟩)
  · simp only [EpollReactor.registerImpl, hfind, hregType, false_and, ↓reduceIte] at hok ⊢
    exact .inr (.inr ⟨hnew, _, tag, hleast.1.2, hok, ⟨tag, by simp, by simp⟩, rfl⟩)

/-! ## The other operations -/

/-- No entry becomes valid, and an entry is posted only if it was valid or posted before. -/
structure Releases (r r' : EpollReactor H) : Prop where
  size : r'.size = r.size
  usedOperationsEnd : r'.usedOperationsEnd = r.usedOperationsEnd
  valid : ∀ tag, (r'.operations tag).valid = true → (r.operations tag).valid = true ∧
    (r'.operations tag).ioSource = (r.operations tag).ioSource
  posted : ∀ tag, (r'.operations tag).handlerPosted = true →
    (r.operations tag).valid = true ∨ (r.operations tag).handlerPosted = true

/-- The table is not changed. -/
theorem Releases.of_operations (hsize : r'.size = r.size)
    (hused : r'.usedOperationsEnd = r.usedOperationsEnd)
    (hops : r'.operations = r.operations) : Releases r r' := by
  refine ⟨hsize, hused, fun tag htag => ?_, fun tag htag => ?_⟩
  · rw [hops] at htag ⊢
    exact ⟨htag, rfl⟩
  · rw [hops] at htag
    exact .inr htag

theorem Releases.trans {r'' : EpollReactor H} (h : Releases r r') (h' : Releases r' r'') :
    Releases r r'' where
  size := h'.size.trans h.size
  usedOperationsEnd := h'.usedOperationsEnd.trans h.usedOperationsEnd
  valid tag htag := by
    obtain ⟨hvalid, hsource⟩ := h'.valid tag htag
    obtain ⟨hvalid', hsource'⟩ := h.valid tag hvalid
    exact ⟨hvalid', hsource.trans hsource'⟩
  posted tag htag := by
    rcases h'.posted tag htag with hvalid | hposted
    · exact .inl (h.valid tag hvalid).1
    · exact h.posted tag hposted

/-- A change of one entry. -/
theorem Releases.of_update {entry : OperationEntry H} (hsize : r'.size = r.size)
    (hused : r'.usedOperationsEnd = r.usedOperationsEnd)
    (hops : r'.operations = Function.update r.operations tag entry)
    (hvalid : entry.valid = true → (r.operations tag).valid = true)
    (hsource : entry.ioSource = (r.operations tag).ioSource)
    (hposted : entry.handlerPosted = true →
      (r.operations tag).valid = true ∨ (r.operations tag).handlerPosted = true) :
    Releases r r' := by
  refine ⟨hsize, hused, fun u hu => ?_, fun u hu => ?_⟩
  · rw [hops] at hu ⊢
    by_cases hut : u = tag
    · subst hut
      rw [Function.update_self] at hu ⊢
      exact ⟨hvalid hu, hsource⟩
    · rw [Function.update_of_ne hut] at hu ⊢
      exact ⟨hu, rfl⟩
  · rw [hops] at hu
    by_cases hut : u = tag
    · subst hut
      rw [Function.update_self] at hu
      exact hposted hu
    · rw [Function.update_of_ne hut] at hu
      exact .inr hu

/-- Such an operation keeps the invariant. -/
theorem TableOk.releases (h : r.TableOk) (hr : Releases r r') : r'.TableOk where
  bound := by
    rw [hr.usedOperationsEnd, hr.size]
    exact h.bound
  beyond tag htag := by
    rw [hr.usedOperationsEnd] at htag
    obtain ⟨hvalid, hposted⟩ := h.beyond tag htag
    constructor
    · by_contra hnot
      simpa [hvalid] using (hr.valid tag (by simpa using hnot)).1
    · by_contra hnot
      simpa [hvalid, hposted] using hr.posted tag (by simpa using hnot)
  sources t u ht hu heq := by
    obtain ⟨hvalid, hsource⟩ := hr.valid t ht
    obtain ⟨hvalid', hsource'⟩ := hr.valid u hu
    exact h.sources t u hvalid hvalid' (hsource.symm.trans (heq.trans hsource'))

theorem releases_derigsterImpl (r : EpollReactor H) (tag : HandlerTag) (closeOnDeregister : Bool) :
    Releases r (r.derigsterImpl tag closeOnDeregister).1 := by
  rcases heq : r.derigsterImpl tag closeOnDeregister with ⟨r₁, _ | _⟩
  · obtain rfl := derigsterImpl_error heq
    exact .of_operations rfl rfl rfl
  · obtain ⟨-, kernel, handler, release, close, rfl⟩ := derigsterImpl_ok heq
    exact .of_update rfl rfl rfl (by simp) rfl .inr

theorem releases_deregisterSoftwareEvent (r : EpollReactor H) (tag : HandlerTag) :
    Releases r (r.deregisterSoftwareEvent tag).1 := by
  cases hvalid : (r.operations tag).valid with
  | true =>
    rw [deregisterSoftwareEvent_eq hvalid]
    exact .of_update rfl rfl rfl (by simp) rfl .inr
  | false =>
    have heq : (r.deregisterSoftwareEvent tag).1 = r := by
      simp [EpollReactor.deregisterSoftwareEvent, hvalid]
    rw [heq]
    exact .of_operations rfl rfl rfl

theorem releases_triggerSoftwareEvent (r : EpollReactor H) (tag : HandlerTag) :
    Releases r (r.triggerSoftwareEvent tag).1 := by
  simp only [EpollReactor.triggerSoftwareEvent]
  split
  · exact .of_operations rfl rfl rfl
  · exact .of_operations rfl rfl rfl

theorem releases_onStartOfOperation (r : EpollReactor H) (tag : HandlerTag) (opType : Events)
    (resources : Bool) : Releases r (r.onStartOfOperation tag opType resources) := by
  obtain ⟨interest, -, heq⟩ := onStartOfOperation_eq r tag opType resources
  rw [heq, markOperationStarted_eq]
  exact .of_update rfl rfl rfl id rfl .inr

theorem releases_doModifyEvent (r : EpollReactor H) (changeHow : EventChangeType)
    (tag : HandlerTag) (ev : Events) (resources : Bool) :
    Releases r (r.doModifyEvent changeHow tag ev resources).1 := by
  simp only [EpollReactor.doModifyEvent]
  split
  · exact .of_operations rfl rfl rfl
  split
  · exact .of_update rfl rfl rfl id rfl .inr
  split
  · exact .of_operations rfl rfl rfl
  · exact .of_update rfl rfl rfl id rfl .inr

/-- Only a valid entry is posted. -/
theorem releases_handleSingleEvent (r : EpollReactor H) (event : EpollEvent)
    (opQueue : List Operation) : Releases r (r.handleSingleEvent event opQueue).1 := by
  obtain ⟨posted, heq, hposted⟩ := handleSingleEvent_eq r event opQueue
  rw [heq]
  refine .of_update rfl rfl rfl id rfl ?_
  intro hentry
  rcases Bool.or_eq_true_iff.mp hentry with hbefore | hnow
  · exact .inr hbefore
  · exact .inl (hposted hnow).1

theorem releases_handleSoftwareEventsLoop (tags : List HandlerTag) (r : EpollReactor H)
    (opQueue : List Operation) (handledEvents : ℕ) :
    Releases r (handleSoftwareEventsLoop tags r opQueue handledEvents).1 := by
  induction tags generalizing r opQueue handledEvents with
  | nil => exact .of_operations rfl rfl rfl
  | cons tag tags ih =>
    simp only [handleSoftwareEventsLoop]
    split
    · exact ih r opQueue handledEvents
    · -- a pass over the entries posts valid ones only
      rename_i hvalid
      replace hvalid : (r.operations tag).valid = true := by simpa using hvalid
      refine .trans ?_ (ih _ _ _)
      split
      · exact .of_update rfl rfl rfl id rfl fun _ => .inl hvalid
      · exact .of_update rfl rfl rfl id rfl fun _ => .inl hvalid

theorem releases_finishSoftwareOperation (r : EpollReactor H) (tag : HandlerTag) :
    Releases r (r.finishSoftwareOperation tag) := by
  rw [finishSoftwareOperation_eq]
  refine .of_update rfl rfl rfl ?_ rfl (by simp)
  simp only [Bool.and_eq_true]
  exact And.left

theorem releases_beginIo (s : Calls.State H) (tag : HandlerTag) (ignored : Option Events)
    (queued : List Operation) : Releases s.reactor (s.beginIo tag ignored queued).reactor := by
  rcases Calls.beginIo_cases s tag ignored queued with
    ⟨-, heq⟩ | ⟨-, heq | ⟨reported, ev, jobCount, -, heq⟩⟩
  · rw [heq]
    exact .of_operations rfl rfl rfl
  · rw [heq]
    exact .of_update rfl rfl rfl id rfl (by simp)
  · rw [heq]
    exact .of_update rfl rfl rfl id rfl .inr

end EpollReactor

namespace Calls

variable {H : Type} {s t : State H} {a : Action H}

/-- Every step but a registration keeps the entries that are in use among those that were. -/
theorem releases_or_registers (ht : s.step a = some t) :
    s.reactor.Releases t.reactor ∨
      ∃ regType fd events handler resources,
        t.reactor = (s.reactor.registerImpl regType fd events handler resources).1 := by
  cases a with
  | openFd fd | closeFd fd =>
    obtain rfl := Option.some.inj ht
    exact .inl (.of_operations rfl rfl rfl)
  | register fd events handler resources =>
    obtain rfl := Option.some.inj ht
    exact .inr ⟨_, fd, events, handler, resources, rfl⟩
  | registerSoftwareEvent isOneshot handler =>
    obtain rfl := Option.some.inj ht
    obtain ⟨regType, events, -, heq⟩ :=
      EpollReactor.registerSoftwareEvent_eq s.reactor isOneshot handler
    exact .inr ⟨regType, _, events, handler, true, congrArg Prod.fst heq⟩
  | deregister tag closeOnDeregister =>
    obtain rfl := Option.some.inj ht
    exact .inl (EpollReactor.releases_derigsterImpl _ _ _)
  | deregisterSoftwareEvent tag =>
    obtain rfl := Option.some.inj ht
    exact .inl (EpollReactor.releases_deregisterSoftwareEvent _ _)
  | trigger tag =>
    obtain rfl := Option.some.inj ht
    exact .inl (EpollReactor.releases_triggerSoftwareEvent _ _)
  | start tag direction resources =>
    simp only [State.step] at ht
    split_ifs at ht
    obtain rfl := Option.some.inj ht
    exact .inl (EpollReactor.releases_onStartOfOperation _ _ _ _)
  | modify changeHow tag ev resources =>
    obtain rfl := Option.some.inj ht
    exact .inl (EpollReactor.releases_doModifyEvent _ _ _ _ _)
  | event event =>
    simp only [State.step] at ht
    split_ifs at ht
    obtain rfl := Option.some.inj ht
    exact .inl (EpollReactor.releases_handleSingleEvent _ _ _)
  | softwareEvents =>
    obtain rfl := Option.some.inj ht
    exact .inl (EpollReactor.releases_handleSoftwareEventsLoop _ _ _ _)
  | begin op ignored =>
    simp only [State.step] at ht
    split_ifs at ht
    cases op with
    | ioEvent tag =>
      obtain rfl := Option.some.inj ht
      exact .inl (EpollReactor.releases_beginIo _ _ _ _)
    | softwareEvent tag =>
      -- the entry is marked as executing, and nothing else
      obtain rfl := Option.some.inj ht
      exact .inl (.of_update rfl rfl rfl id rfl .inr)
    | timer =>
      obtain rfl := Option.some.inj ht
      exact .inl (.of_operations rfl rfl rfl)
  | ignoreRead tag =>
    simp only [State.step] at ht
    split_ifs at ht
    obtain rfl := Option.some.inj ht
    exact .inl (.of_update rfl rfl rfl id rfl .inr)
  | finish op =>
    simp only [State.step] at ht
    split_ifs at ht
    cases op with
    | ioEvent tag =>
      obtain rfl := Option.some.inj ht
      refine .inl ?_
      rw [EpollReactor.finishOperation_eq]
      exact .of_update rfl rfl rfl id rfl (by simp)
    | softwareEvent tag =>
      obtain rfl := Option.some.inj ht
      exact .inl (EpollReactor.releases_finishSoftwareOperation _ _)
    | timer =>
      obtain rfl := Option.some.inj ht
      exact .inl (.of_operations rfl rfl rfl)

/-- The invariant holds in every reachable state. -/
theorem tableOk_of_reachable (hs : (machine H).Reachable s) : s.reactor.TableOk := by
  -- by induction on the run: a step registers an entry or at most releases some
  refine hs.invariant (I := fun s => s.reactor.TableOk) ?_ ?_
  · rintro _ ⟨size, isOpen, rfl⟩
    exact ⟨Nat.zero_le _, fun _ _ => ⟨rfl, rfl⟩, fun t u ht => by cases ht⟩
  · intro s a t hok _ ht
    rcases releases_or_registers ht with hr | ⟨regType, fd, events, handler, resources, heq⟩
    · exact hok.releases hr
    · rw [heq]
      exact hok.registerImpl regType fd events handler resources

end Calls

namespace SlotTable

open Calls (State Action machine)
open EpollReactor

variable {H : Type} {s : State H}

/-- In every reachable state the entries from `used_operations_end_` on are free and no descriptor
is registered twice. The search takes the first free entry for a descriptor that is not registered;
it refuses a descriptor exactly if it is registered, and finds the table full exactly if the
descriptor is not registered and no entry is free. -/
theorem slot_allocation (hs : (machine H).Reachable s) (ioSource : NativeHandle) :
    (∀ tag, s.reactor.usedOperationsEnd ≤ tag → (s.reactor.operations tag).valid = false ∧
      (s.reactor.operations tag).handlerPosted = false) ∧
    (∀ t u, (s.reactor.operations t).valid = true → (s.reactor.operations u).valid = true →
      (s.reactor.operations t).ioSource = (s.reactor.operations u).ioSource → t = u) ∧
    (∀ tag, (s.reactor.findFreeOperationSlot ioSource).2 = .ok tag ↔
      ¬ s.reactor.IsRegistered ioSource ∧
        IsLeast {tag | tag < s.reactor.size ∧ s.reactor.IsFree tag} tag) ∧
    ((s.reactor.findFreeOperationSlot ioSource).2 = .error .apiError ↔
      s.reactor.IsRegistered ioSource) ∧
    ((s.reactor.findFreeOperationSlot ioSource).2 = .error .capacityExceeded ↔
      ¬ s.reactor.IsRegistered ioSource ∧ ∀ tag < s.reactor.size, ¬ s.reactor.IsFree tag) := by
  have hok := Calls.tableOk_of_reachable hs
  refine ⟨hok.beyond, hok.sources, ?_⟩
  rcases hok.findFreeOperationSlot_cases ioSource with ⟨hreg, heq⟩ | ⟨hnew, hfull, heq⟩ |
    ⟨hnew, tag, used, hleast, heq, -⟩
  · -- the descriptor is registered
    rw [heq]
    simp [hreg]
  · -- the table is full
    rw [heq]
    refine ⟨fun tag => ?_, by simp [hnew], iff_of_true rfl ⟨hnew, hfull⟩⟩
    refine iff_of_false (by simp) ?_
    rintro ⟨-, ⟨hlt, hfree⟩, -⟩
    exact hfull tag hlt hfree
  · -- the first free entry is found
    rw [heq]
    refine ⟨fun tag' => ?_, by simp [hnew], ?_⟩
    · constructor
      · intro hok
        obtain rfl := Except.ok.inj hok
        exact ⟨hnew, hleast⟩
      · rintro ⟨-, hleast'⟩
        exact congrArg Except.ok (hleast.unique hleast')
    · refine iff_of_false (by simp) ?_
      rintro ⟨-, hfull⟩
      exact hfull tag hleast.1.1 hleast.1.2

/-- After a first registration the second entry is the one that is found. -/
theorem slot_allocation_second :
    ∃ s : State Unit, (machine Unit).Reachable s ∧
      (s.reactor.findFreeOperationSlot 6).2 = .ok 1 ∧ ¬ s.reactor.IsRegistered 6 ∧
      IsLeast {tag | tag < s.reactor.size ∧ s.reactor.IsFree tag} 1 := by
  have hs := ToMathlib.Machine.reachableIn_get_run (M := machine Unit)
    (C := ToMathlib.Machine.Always) (s := { reactor := { size := 2, kernel := {
      isOpen := fun _ => true } } }) (l := [.register 5 .kRead () true]) ⟨2, fun _ => true, rfl⟩ rfl
  exact ⟨_, hs, rfl, ((slot_allocation hs 6).2.2.1 1).mp rfl⟩

/-! ## Several software events -/

/-- Successive registrations of software events, each one-shot or persistent, with their results. -/
def registerSoftwareEvents (r : EpollReactor H) :
    List (Bool × H) → EpollReactor H × List (Except ErrorCode HandlerTag)
  | [] => (r, [])
  | (isOneshot, handler) :: rest =>
    let (r, result) := r.registerSoftwareEvent isOneshot handler
    let (r, results) := registerSoftwareEvents r rest
    (r, result :: results)

/-- The number of free entries. -/
def freeSlots (r : EpollReactor H) : ℕ :=
  ((Finset.range r.size).filter fun tag => r.IsFree tag).card

/-- All registrations succeed, with different tags of entries that were not valid. -/
def Coexist (r : EpollReactor H) (events : List (Bool × H)) : Prop :=
  ∃ tags : List HandlerTag, (registerSoftwareEvents r events).2 = tags.map .ok ∧ tags.Nodup ∧
    ∀ tag ∈ tags, (r.operations tag).valid = false

/-- Where all registrations succeed there is no error among the results. -/
theorem error_notMem_map_ok (ec : ErrorCode) (tags : List HandlerTag) :
    (.error ec : Except ErrorCode HandlerTag) ∉ tags.map .ok := by
  simp

/-- If there is a free slot for each of them, software events can be registered in a row if and only
if there is at most one of them, and none is registered before it. -/
theorem software_events_coexist_iff (hs : (machine H).Reachable s) {events : List (Bool × H)}
    (hfree : events.length ≤ freeSlots s.reactor) :
    Coexist s.reactor events ↔
      events = [] ∨ events.length = 1 ∧ ¬ s.reactor.IsRegistered kInvalidNativeHandle := by
  have hok := Calls.tableOk_of_reachable hs
  match events with
  | [] => exact iff_of_true ⟨[], rfl, List.nodup_nil, by simp⟩ (.inl rfl)
  | (isOneshot, handler) :: rest =>
    have hexists : ∃ tag < s.reactor.size, s.reactor.IsFree tag := by
      have hpos : 0 < ((Finset.range s.reactor.size).filter fun tag => s.reactor.IsFree tag).card :=
        lt_of_lt_of_le (by simp) hfree
      obtain ⟨tag, htag⟩ := Finset.card_pos.mp hpos
      rw [Finset.mem_filter, Finset.mem_range] at htag
      exact ⟨tag, htag⟩
    rcases hok.registerSoftwareEvent_cases isOneshot handler with ⟨hreg, heq⟩ | ⟨-, hfull, -⟩ |
      ⟨hnew, r', tag, htag, hok', hreg', heq⟩
    · -- the first one is refused
      refine iff_of_false ?_ (by simp [hreg])
      rintro ⟨tags, hresults, -⟩
      simp only [registerSoftwareEvents, heq] at hresults
      exact error_notMem_map_ok .apiError tags (hresults ▸ List.mem_cons_self)
    · obtain ⟨tag, hlt, hfree⟩ := hexists
      exact absurd hfree (hfull tag hlt)
    · match rest with
      | [] =>
        refine iff_of_true ⟨[tag], ?_, List.nodup_singleton tag, ?_⟩ (.inr ⟨rfl, hnew⟩)
        · simp [registerSoftwareEvents, heq]
        · simpa using htag.1
      | (isOneshot', handler') :: rest' =>
        -- the first one is in the way of the second
        refine iff_of_false ?_ (by simp)
        rintro ⟨tags, hresults, -⟩
        rcases hok'.registerSoftwareEvent_cases isOneshot' handler' with ⟨-, heq'⟩ | ⟨hnew', -⟩ |
          ⟨hnew', -⟩
        · simp only [registerSoftwareEvents, heq, heq'] at hresults
          exact error_notMem_map_ok .apiError tags (hresults ▸ by simp)
        · exact hnew' hreg'
        · exact hnew' hreg'

/-- A single software event on a table with two slots. -/
theorem software_events_coexist_single :
    ∃ s : State Unit, (machine Unit).Reachable s ∧ 1 ≤ freeSlots s.reactor ∧
      Coexist s.reactor [(true, ())] := by
  have hs : (machine Unit).Reachable { reactor := { size := 2 } } := .init ⟨2, fun _ => false, rfl⟩
  have hfree : [(true, ())].length ≤ freeSlots (H := Unit) { size := 2 } := by decide
  refine ⟨_, hs, hfree, (software_events_coexist_iff hs hfree).mpr (.inr ⟨rfl, ?_⟩)⟩
  rintro ⟨tag, hvalid, -⟩
  cases hvalid

/-- With two free slots the second of two persistent software events is refused. -/
theorem not_software_events_coexist :
    ¬ ∀ s : State Unit, (machine Unit).Reachable s → ∀ events : List (Bool × Unit),
      events.length ≤ freeSlots s.reactor → Coexist s.reactor events := by
  intro h
  obtain ⟨tags, hresults, -⟩ := h { reactor := { size := 2 } } (.init ⟨2, fun _ => false, rfl⟩)
    [(false, ()), (false, ())] (by decide)
  have heq : (registerSoftwareEvents (H := Unit) { size := 2 } [(false, ()), (false, ())]).2 =
      [.ok 0, .error .apiError] := rfl
  rw [heq] at hresults
  exact error_notMem_map_ok .apiError tags (hresults ▸ by simp)

end SlotTable

end Asrt.Reactor
